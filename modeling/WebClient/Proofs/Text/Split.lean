import Mathlib.Data.List.DropRight
import Mathlib.Data.List.Infix
import Mathlib.Data.List.TakeWhile
import WebClient.Text.Blank
import WebClient.Text.Split

/-!
# Pieces of a text

A marker is found exactly when it stands somewhere in the text, and the cut gives back what stands
around it. Pieces that are cut out of a text, and what is left of it without the blanks at its ends,
stand somewhere in it too.
-/

namespace WebClient.Text

/-! ### Markers -/

theorem splitMarkerFrom?_isSome_of_infix {marker cs : List Char} (h : marker <:+: cs)
    (seen : List Char) : (splitMarkerFrom? marker seen cs).isSome := by
  induction cs generalizing seen with
  | nil =>
    rw [splitMarkerFrom?, if_pos (List.infix_nil.1 h)]
    rfl
  | cons c cs ih =>
    rw [splitMarkerFrom?]
    split
    · rfl
    · next hnot =>
      rcases List.infix_cons_iff.1 h with hhere | hlater
      · obtain ⟨after, hafter⟩ := hhere
        simp [List.isPrefixOf?_eq_some_iff_append_eq.2 hafter] at hnot
      · exact ih hlater _

theorem eq_of_splitMarkerFrom? {marker seen cs before after : List Char}
    (h : splitMarkerFrom? marker seen cs = some (before, after)) :
    ∃ passed, before = seen.reverse ++ passed ∧ cs = passed ++ marker ++ after := by
  induction cs generalizing seen with
  | nil =>
    rw [splitMarkerFrom?] at h
    split at h
    · next hempty =>
      obtain ⟨rfl, rfl⟩ := Prod.mk.inj (Option.some.inj h)
      exact ⟨[], by simp, by simp [hempty]⟩
    · nomatch h
  | cons c cs ih =>
    rw [splitMarkerFrom?] at h
    split at h
    · next rest hrest =>
      obtain ⟨rfl, rfl⟩ := Prod.mk.inj (Option.some.inj h)
      refine ⟨[], by simp, ?_⟩
      exact (List.isPrefixOf?_eq_some_iff_append_eq.1 hrest).symm
    · obtain ⟨passed, rfl, rfl⟩ := ih h
      exact ⟨c :: passed, by simp, by simp⟩

theorem eq_of_splitMarker? {marker cs before after : List Char}
    (h : splitMarker? marker cs = some (before, after)) : cs = before ++ marker ++ after := by
  obtain ⟨passed, rfl, rfl⟩ := eq_of_splitMarkerFrom? h
  simp

theorem infix_of_splitMarkerFrom?_isSome {marker seen cs : List Char}
    (h : (splitMarkerFrom? marker seen cs).isSome) : marker <:+: cs := by
  obtain ⟨⟨before, after⟩, hcut⟩ := Option.isSome_iff_exists.1 h
  obtain ⟨passed, -, rfl⟩ := eq_of_splitMarkerFrom? hcut
  exact ⟨passed, after, rfl⟩

theorem splitMarker?_eq_none_iff {marker cs : List Char} :
    splitMarker? marker cs = none ↔ ¬ marker <:+: cs := by
  rw [← Option.not_isSome_iff_eq_none, not_iff_not]
  exact ⟨infix_of_splitMarkerFrom?_isSome, fun h => splitMarkerFrom?_isSome_of_infix h []⟩

/-- A marker is found in its first place when the text in front does not have the character that
the marker begins with. -/
theorem splitMarkerFrom?_append {mark : Char} {marker before : List Char} (h : mark ∉ before)
    (seen after : List Char) :
    splitMarkerFrom? (mark :: marker) seen (before ++ mark :: marker ++ after) =
      some (seen.reverse ++ before, after) := by
  induction before generalizing seen with
  | nil =>
    have hhere : (mark :: marker).isPrefixOf? (mark :: marker ++ after) = some after :=
      List.isPrefixOf?_eq_some_iff_append_eq.2 rfl
    rw [List.nil_append, List.cons_append, splitMarkerFrom?, ← List.cons_append, hhere]
    simp
  | cons c before ih =>
    obtain ⟨hc, hbefore⟩ := not_or.1 (mt List.mem_cons.2 h)
    have hnot : (mark :: marker).isPrefixOf? (c :: (before ++ mark :: marker ++ after)) = none := by
      simp [List.isPrefixOf?, hc]
    rw [List.cons_append, List.cons_append, splitMarkerFrom?, hnot]
    simpa using ih hbefore (c :: seen)

theorem splitMarker?_append {mark : Char} {marker before : List Char} (h : mark ∉ before)
    (after : List Char) :
    splitMarker? (mark :: marker) (before ++ mark :: marker ++ after) = some (before, after) :=
  splitMarkerFrom?_append h [] after

/-! ### Separators -/

theorem infix_of_mem_splitOn {sep : Char} {cs piece : List Char} (h : piece ∈ cs.splitOn sep) :
    piece <:+: cs := by
  obtain ⟨i, hi⟩ := List.getElem?_of_mem h
  have hmem : piece ∈ (cs.splitOn sep).intersperse [sep] :=
    List.mem_of_getElem? (by rw [List.getElem?_intersperse_two_mul, hi])
  have hwhole : [sep].intercalate (cs.splitOn sep) = cs := List.intercalate_splitOn sep
  rw [← hwhole]
  exact List.infix_of_mem_flatten hmem

theorem splitOn_cons_self (sep : Char) (cs : List Char) :
    (sep :: cs).splitOn sep = [] :: cs.splitOn sep := by
  simp [List.splitOn, List.splitOnP_cons_eq_if_modifyHead]

theorem not_mem_of_mem_splitOn {sep : Char} {cs piece : List Char}
    (h : piece ∈ cs.splitOn sep) : sep ∉ piece := by
  induction cs generalizing piece with
  | nil =>
    rw [List.splitOn_nil, List.mem_singleton] at h
    simp [h]
  | cons c cs ih =>
    by_cases hsep : c = sep
    · subst hsep
      rw [splitOn_cons_self, List.mem_cons] at h
      rcases h with rfl | h
      · exact List.not_mem_nil
      · exact ih h
    · obtain ⟨first, rest, hfirst⟩ := List.exists_cons_of_ne_nil (List.splitOn_ne_nil sep cs)
      have hcut : (c :: cs).splitOn sep = (c :: first) :: rest := by
        unfold List.splitOn at hfirst ⊢
        simp [List.splitOnP_cons_eq_if_modifyHead, hsep, hfirst]
      rw [hcut, List.mem_cons] at h
      rcases h with rfl | h
      · have hnot : sep ∉ first := ih (by rw [hfirst]; exact List.mem_cons_self)
        simp [hnot, Ne.symm hsep]
      · exact ih (by rw [hfirst]; exact List.mem_cons_of_mem _ h)

theorem splitLast?_eq_some_iff {sep : Char} {cs before after : List Char} :
    splitLast? sep cs = some (before, after) ↔ cs = before ++ sep :: after ∧ sep ∉ after := by
  have hreverse (behind front : List Char) :
      splitFirst? sep cs.reverse = some (behind, front) ↔
        cs = front.reverse ++ sep :: behind.reverse ∧ sep ∉ behind := by
    rw [splitFirst?_eq_some_iff, List.reverse_eq_iff]
    simp
  simp only [splitLast?, Option.map_eq_some_iff, Prod.exists, Prod.mk.injEq, hreverse]
  constructor
  · rintro ⟨behind, front, ⟨heq, hnot⟩, rfl, rfl⟩
    exact ⟨heq, by simpa using hnot⟩
  · rintro ⟨heq, hnot⟩
    exact ⟨after.reverse, before.reverse, by simpa using ⟨heq, hnot⟩, by simp, by simp⟩

theorem splitLast?_eq_none_iff {sep : Char} {cs : List Char} :
    splitLast? sep cs = none ↔ sep ∉ cs := by
  rw [splitLast?, Option.map_eq_none_iff, splitFirst?_eq_none_iff, List.mem_reverse]

/-! ### Blanks -/

theorem trimChars_infix (cs : List Char) : trimChars cs <:+: cs := by
  have hfront : cs.dropWhile isBlank <:+: cs := (List.dropWhile_suffix _).isInfix
  have hback : (trimChars cs).reverse <:+: (cs.dropWhile isBlank).reverse := by
    rw [trimChars, List.reverse_reverse]
    exact (List.dropWhile_suffix _).isInfix
  exact (List.reverse_infix.1 hback).trans hfront

theorem exists_eq_append_trimChars (cs : List Char) :
    ∃ front back, (∀ c ∈ front, isBlank c = true) ∧ (∀ c ∈ back, isBlank c = true) ∧
      cs = front ++ trimChars cs ++ back := by
  refine ⟨cs.takeWhile isBlank, ((cs.dropWhile isBlank).reverse.takeWhile isBlank).reverse,
    fun c hc => List.mem_takeWhile_imp hc, ?_, ?_⟩
  · intro c hc
    exact List.mem_takeWhile_imp (List.mem_reverse.1 hc)
  · have hback : trimChars cs ++ ((cs.dropWhile isBlank).reverse.takeWhile isBlank).reverse =
        cs.dropWhile isBlank := by
      rw [trimChars, ← List.reverse_append, List.takeWhile_append_dropWhile, List.reverse_reverse]
    rw [List.append_assoc, hback, List.takeWhile_append_dropWhile]

theorem trimChars_append_left {blanks : List Char} (h : ∀ c ∈ blanks, isBlank c = true)
    (cs : List Char) : trimChars (blanks ++ cs) = trimChars cs := by
  rw [trimChars, List.dropWhile_append_of_pos h, trimChars]

theorem isBlank_of_head?_dropWhile {cs : List Char} {c : Char}
    (h : c ∈ (cs.dropWhile isBlank).head?) : isBlank c = false := by
  have hfirst := List.head?_dropWhile_not isBlank cs
  rw [Option.mem_def.1 h] at hfirst
  exact hfirst

theorem isBlank_of_head?_trimChars {cs : List Char} {c : Char}
    (h : c ∈ (trimChars cs).head?) : isBlank c = false := by
  have hfront : trimChars cs <+: cs.dropWhile isBlank := by
    rw [← List.reverse_suffix, trimChars, List.reverse_reverse]
    exact List.dropWhile_suffix _
  obtain ⟨back, hback⟩ := hfront
  have hhead : c ∈ (cs.dropWhile isBlank).head? := by
    rw [← hback, List.head?_append, Option.mem_def.1 h]
    rfl
  exact isBlank_of_head?_dropWhile hhead

theorem isBlank_of_getLast?_trimChars {cs : List Char} {c : Char}
    (h : c ∈ (trimChars cs).getLast?) : isBlank c = false := by
  rw [trimChars, List.getLast?_reverse] at h
  exact isBlank_of_head?_dropWhile h

@[simp] theorem trimChars_trimChars (cs : List Char) : trimChars (trimChars cs) = trimChars cs :=
  trimChars_eq_self (fun _ hc => isBlank_of_head?_trimChars hc)
    fun _ hc => isBlank_of_getLast?_trimChars hc

theorem trimChars_append_cons {front : List Char} (hfront : ∀ c ∈ front.head?, isBlank c = false)
    {first : Char} (hfirst : isBlank first = false) (rest : List Char) :
    trimChars (front ++ first :: rest) = front ++ first :: rest.rdropWhile isBlank := by
  have hkeep : (front ++ first :: rest).dropWhile isBlank = front ++ first :: rest := by
    cases front with
    | nil => simp [hfirst]
    | cons c front => simp [hfront c rfl]
  have hback : (rest.reverse ++ (first :: front.reverse)).dropWhile isBlank =
      rest.reverse.dropWhile isBlank ++ (first :: front.reverse) := by
    rw [List.dropWhile_append]
    split
    · next hempty => simp [List.isEmpty_iff.1 hempty, hfirst]
    · rfl
  have hreverse : (front ++ first :: rest).reverse = rest.reverse ++ (first :: front.reverse) := by
    simp
  rw [trimChars, hkeep, hreverse, hback]
  simp [List.rdropWhile]

theorem trimChars_cons {first : Char} (hfirst : isBlank first = false) (rest : List Char) :
    trimChars (first :: rest) = first :: rest.rdropWhile isBlank := by
  have hnone : ∀ c ∈ ([] : List Char).head?, isBlank c = false := by simp
  exact trimChars_append_cons hnone hfirst rest

end WebClient.Text
