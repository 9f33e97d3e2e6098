import Mathlib.Data.List.DropRight
import WebClient.Endpoint.Resolve
import WebClient.Proofs.Text.Split

/-!
# Paths without dot segments

RFC 3986 takes dot segments out of a path by rewriting: it looks at the front of what is left of the
path, and moves one segment after the other from there to the end of what has been put out
(`rewriteDots`, section 5.2.4). An endpoint's path is cut into segments instead, which are kept on a
stack. Behind every segment the stack spells the output of the rewriting (`rewriteDots_spell`), so
the two come to the same path (`removeDotSegments_eq`). On the stack it is plain to see that no dot
segment is left, and that there is nothing to take out a second time.
-/

namespace WebClient.Endpoint

/-! ### The rewriting -/

/-- A path without its last segment and the slash in front of it, if there is one. -/
def dropSegment (path : List Char) : List Char :=
  match Text.splitLast? '/' path with
  | some (before, _) => before
  | none => []

/-- The output of the rewriting, from what has been put out and what is left of the path. -/
def rewriteDots (output : List Char) : (input : List Char) → List Char
  | [] => output
  -- A: dots in front of the first slash
  | '.' :: '.' :: '/' :: rest => rewriteDots output rest
  | '.' :: '/' :: rest => rewriteDots output rest
  -- B: a dot
  | '/' :: '.' :: '/' :: rest => rewriteDots output ('/' :: rest)
  | ['/', '.'] => rewriteDots output ['/']
  -- C: two dots, which take the segment before them away
  | '/' :: '.' :: '.' :: '/' :: rest => rewriteDots (dropSegment output) ('/' :: rest)
  | ['/', '.', '.'] => rewriteDots (dropSegment output) ['/']
  -- D: nothing but dots
  | ['.'] => output
  | ['.', '.'] => output
  -- E: any other segment, with the slash in front of it
  | c :: rest =>
    rewriteDots (output ++ c :: rest.takeWhile (· ≠ '/')) (rest.dropWhile (· ≠ '/'))
termination_by input => input.length
decreasing_by
  all_goals simp only [List.length_cons, List.length_nil]
  all_goals first | omega | have := (List.dropWhile_suffix (· ≠ '/') (l := rest)).length_le; omega

/-- One segment, or two, that stand for a place and not for a name. -/
def IsDots (segment : List Char) : Prop :=
  segment = ['.'] ∨ segment = ['.', '.']

instance (segment : List Char) : Decidable (IsDots segment) :=
  inferInstanceAs (Decidable (_ ∨ _))

def spell (segments : List (List Char)) : List Char :=
  segments.flatMap ('/' :: ·)

@[simp] theorem spell_nil : spell [] = [] := rfl

@[simp] theorem spell_cons (segment : List Char) (segments : List (List Char)) :
    spell (segment :: segments) = '/' :: segment ++ spell segments := rfl

@[simp] theorem spell_append (segments later : List (List Char)) :
    spell (segments ++ later) = spell segments ++ spell later :=
  List.flatMap_append

theorem rewriteDots_slash (output : List Char) : rewriteDots output ['/'] = output ++ ['/'] := by
  rw [rewriteDots] <;> simp [rewriteDots]

theorem spell_cut {segment : List Char} (hslash : '/' ∉ segment) (segments : List (List Char)) :
    (segment ++ spell segments).takeWhile (· ≠ '/') = segment ∧
      (segment ++ spell segments).dropWhile (· ≠ '/') = spell segments := by
  have hpass : ∀ c ∈ segment, decide (c ≠ '/') = true := by
    simpa using fun c hc => ne_of_mem_of_not_mem hc hslash
  rw [List.takeWhile_append_of_pos hpass, List.dropWhile_append_of_pos hpass]
  cases segments <;> simp

/-- A segment that is not dots is moved as it is. -/
theorem rewriteDots_segment {segment : List Char} (hslash : '/' ∉ segment)
    (hdots : ¬ IsDots segment) (output : List Char) (segments : List (List Char)) :
    rewriteDots output (spell (segment :: segments)) =
      rewriteDots (output ++ '/' :: segment) (spell segments) := by
  obtain ⟨hsegment, hbehind⟩ := spell_cut hslash segments
  have hnot {text : List Char} (heq : segment ++ spell segments = text) :
      ¬ IsDots (text.takeWhile (· ≠ '/')) := by
    rwa [← heq, hsegment]
  rw [spell_cons, List.cons_append, rewriteDots, hsegment, hbehind]
  case x_3 => exact fun rest _ heq => hnot heq (.inl (by simp))
  case x_4 => exact fun _ heq => hnot heq (.inl (by simp))
  case x_5 => exact fun rest _ heq => hnot heq (.inr (by simp))
  case x_6 => exact fun _ heq => hnot heq (.inr (by simp))
  -- The other rules are for a path that does not begin with a slash.
  all_goals simp

theorem dropSegment_spell {kept : List (List Char)} (hkept : ∀ segment ∈ kept, '/' ∉ segment) :
    dropSegment (spell kept.reverse) = spell kept.tail.reverse := by
  cases kept with
  | nil => rfl
  | cons last kept =>
    have hcut : Text.splitLast? '/' (spell (last :: kept).reverse) =
        some (spell kept.reverse, last) :=
      Text.splitLast?_eq_some_iff.2 ⟨by simp, hkept last List.mem_cons_self⟩
    rw [dropSegment, hcut, List.tail_cons]

/-- **Stack and rewriting keep step.** When the output spells the segments on the stack, it does so
in the end. -/
theorem rewriteDots_spell {kept segments : List (List Char)}
    (hkept : ∀ segment ∈ kept, '/' ∉ segment) (hslash : ∀ segment ∈ segments, '/' ∉ segment) :
    rewriteDots (spell kept.reverse) (spell segments) = spell (keepSegments kept segments) := by
  induction segments generalizing kept with
  | nil => simp [rewriteDots, keepSegments]
  | cons segment rest ih =>
    obtain ⟨hsegment, hrest⟩ := List.forall_mem_cons.1 hslash
    have htail : ∀ segment ∈ kept.tail, '/' ∉ segment := fun segment hmem =>
      hkept segment (List.mem_of_mem_tail hmem)
    by_cases hdots : IsDots segment
    · cases rest with
      | nil =>
        -- Dots in last place leave a slash behind.
        rcases hdots with rfl | rfl
        · simp [keepSegments, rewriteDots, rewriteDots_slash]
        · simp [keepSegments, rewriteDots, rewriteDots_slash, dropSegment_spell hkept]
      | cons next rest =>
        rcases hdots with rfl | rfl
        · have hrule : rewriteDots (spell kept.reverse) (spell (['.'] :: next :: rest)) =
              rewriteDots (spell kept.reverse) (spell (next :: rest)) := by
            simp [rewriteDots]
          rw [hrule, ih hkept hrest]
          simp [keepSegments]
        · have hrule : rewriteDots (spell kept.reverse) (spell (['.', '.'] :: next :: rest)) =
              rewriteDots (spell kept.tail.reverse) (spell (next :: rest)) := by
            simp [rewriteDots, dropSegment_spell hkept]
          rw [hrule, ih htail hrest]
          simp [keepSegments]
    · have hname : segment ≠ ['.'] ∧ segment ≠ ['.', '.'] := not_or.1 hdots
      have hpush : ∀ other ∈ segment :: kept, '/' ∉ other :=
        List.forall_mem_cons.2 ⟨hsegment, hkept⟩
      have houtput : spell kept.reverse ++ '/' :: segment = spell (segment :: kept).reverse := by
        simp
      rw [rewriteDots_segment hsegment hdots, houtput, ih hpush hrest]
      simp [keepSegments, hname]

theorem rewriteDots_nil_spell {segments : List (List Char)}
    (hslash : ∀ segment ∈ segments, '/' ∉ segment) :
    rewriteDots [] (spell segments) = spell (keepSegments [] segments) := by
  have hnil : ∀ segment ∈ ([] : List (List Char)), '/' ∉ segment := List.forall_mem_nil _
  simpa using rewriteDots_spell hnil hslash

/-! ### What is kept -/

theorem keepSegments_ne_nil {segments : List (List Char)} (h : segments ≠ [])
    (kept : List (List Char)) : keepSegments kept segments ≠ [] := by
  induction segments generalizing kept with
  | nil => exact absurd rfl h
  | cons segment rest ih =>
    cases rest with
    | nil =>
      simp only [keepSegments, List.isEmpty_nil, if_true]
      split
      · simp
      · split <;> simp
    | cons next rest =>
      rw [keepSegments]
      split
      · exact ih (by simp) _
      · split <;> exact ih (by simp) _

/-- A segment that is kept was there before, unless it is the empty one in last place. -/
theorem mem_keepSegments {segments kept : List (List Char)} {segment : List Char}
    (h : segment ∈ keepSegments kept segments) :
    segment ∈ kept ∨ segment = [] ∨ segment ∈ segments ∧ ¬ IsDots segment := by
  induction segments generalizing kept with
  | nil => exact .inl (by simpa [keepSegments] using h)
  | cons first rest ih =>
    -- What dots leave on the stack, with the empty segment that they may leave behind.
    have hclose {kept' : List (List Char)} (hkept : kept' ⊆ kept)
        (hmem : segment ∈ keepSegments (if rest.isEmpty then [] :: kept' else kept') rest) :
        segment ∈ kept ∨ segment = [] ∨ segment ∈ first :: rest ∧ ¬ IsDots segment := by
      rcases ih hmem with hbefore | hempty | ⟨hlater, hname⟩
      · split at hbefore
        · exact (List.mem_cons.1 hbefore).elim (fun hnil => .inr (.inl hnil)) fun hmem =>
            .inl (hkept hmem)
        · exact .inl (hkept hbefore)
      · exact .inr (.inl hempty)
      · exact .inr (.inr ⟨List.mem_cons_of_mem _ hlater, hname⟩)
    rw [keepSegments] at h
    split at h
    · exact hclose (List.Subset.refl kept) h
    · next hdot =>
      split at h
      · exact hclose (List.tail_subset kept) h
      · next hdots =>
        rcases ih h with hbefore | hempty | ⟨hlater, hname⟩
        · rcases List.mem_cons.1 hbefore with rfl | hkept
          · exact .inr (.inr ⟨List.mem_cons_self, not_or.2 ⟨hdot, hdots⟩⟩)
          · exact .inl hkept
        · exact .inr (.inl hempty)
        · exact .inr (.inr ⟨List.mem_cons_of_mem _ hlater, hname⟩)

theorem keepSegments_of_names {segments : List (List Char)}
    (h : ∀ segment ∈ segments, ¬ IsDots segment) (kept : List (List Char)) :
    keepSegments kept segments = kept.reverse ++ segments := by
  induction segments generalizing kept with
  | nil => simp [keepSegments]
  | cons segment rest ih =>
    obtain ⟨hname, hrest⟩ := List.forall_mem_cons.1 h
    obtain ⟨hdot, hdots⟩ := not_or.1 hname
    rw [keepSegments, if_neg hdot, if_neg hdots, ih hrest]
    simp

/-! ### Paths and their segments -/

theorem spell_eq_intercalate {segments : List (List Char)} (h : segments ≠ []) :
    spell segments = '/' :: ['/'].intercalate segments := by
  induction segments with
  | nil => exact absurd rfl h
  | cons segment rest ih =>
    cases rest with
    | nil => simp
    | cons next rest =>
      rw [spell_cons, ih (by simp), List.intercalate_cons_cons]
      simp

/-- The segments of a path are what it is cut into at its slashes, without what stands in front of
the first. -/
theorem splitOn_spell {segments : List (List Char)} (h : segments ≠ [])
    (hslash : ∀ segment ∈ segments, '/' ∉ segment) :
    (spell segments).splitOn '/' = [] :: segments := by
  rw [spell_eq_intercalate h, Text.splitOn_cons_self, List.splitOn_intercalate '/' hslash h]

theorem exists_spell_eq {path : List Char} (h : ['/'] <+: path) :
    ∃ segments, segments ≠ [] ∧ (∀ segment ∈ segments, '/' ∉ segment) ∧ path = spell segments := by
  obtain ⟨rest, rfl⟩ := h
  refine ⟨rest.splitOn '/', List.splitOn_ne_nil '/' rest,
    fun segment hmem => Text.not_mem_of_mem_splitOn hmem, ?_⟩
  rw [spell_eq_intercalate (List.splitOn_ne_nil '/' rest), List.intercalate_splitOn]
  rfl

/-- **What the rewriting leaves** of a path that begins with a slash: names, each of which stood in
the path, or nothing between two slashes. -/
theorem exists_names {path : List Char} (h : ['/'] <+: path) :
    ∃ names, names ≠ [] ∧ (∀ name ∈ names, '/' ∉ name ∧ ¬ IsDots name ∧ name ⊆ path) ∧
      rewriteDots [] path = spell names ∧
      '/' :: ['/'].intercalate (keepSegments [] (path.splitOn '/').tail) = spell names := by
  obtain ⟨segments, hne, hslash, rfl⟩ := exists_spell_eq h
  have hkept := keepSegments_ne_nil hne []
  refine ⟨keepSegments [] segments, hkept, fun name hname => ?_,
    rewriteDots_nil_spell hslash, ?_⟩
  · rcases mem_keepSegments hname with hnone | rfl | ⟨hmem, hdots⟩
    · exact absurd hnone List.not_mem_nil
    · simp [IsDots]
    · refine ⟨hslash name hmem, hdots, fun c hc => ?_⟩
      exact List.mem_flatMap.2 ⟨name, hmem, List.mem_cons_of_mem _ hc⟩
  · rw [splitOn_spell hne hslash, List.tail_cons, spell_eq_intercalate hkept]

theorem slash_dropQuery {target : List Char} (h : ['/'] <+: target) :
    ['/'] <+: dropQuery target := by
  obtain ⟨rest, rfl⟩ := h
  exact ⟨rest.takeWhile (· ≠ '?'), by simp [dropQuery]⟩

/-- **An endpoint's path is what the rewriting makes of it.** -/
theorem removeDotSegments_eq {target : List Char} (h : ['/'] <+: target) :
    removeDotSegments target =
      rewriteDots [] (dropQuery target) ++ target.dropWhile (· ≠ '?') := by
  obtain ⟨names, -, -, hrewrite, hkeep⟩ := exists_names (slash_dropQuery h)
  rw [hrewrite, ← hkeep]
  rfl

/-- The rewriting leaves a path in which no segment is dots, which is left as it is. -/
theorem rewriteDots_clean {path : List Char} (h : ['/'] <+: path) :
    ['/'] <+: rewriteDots [] path ∧
      (∀ segment ∈ (rewriteDots [] path).splitOn '/', ¬ IsDots segment) ∧
      rewriteDots [] path ⊆ path ∧ rewriteDots [] (rewriteDots [] path) = rewriteDots [] path := by
  obtain ⟨names, hne, hnames, hrewrite, -⟩ := exists_names h
  have hslash : ∀ name ∈ names, '/' ∉ name := fun name hname => (hnames name hname).1
  have hdots : ∀ name ∈ names, ¬ IsDots name := fun name hname => (hnames name hname).2.1
  rw [hrewrite]
  refine ⟨?_, fun segment hsegment => ?_, fun c hc => ?_, ?_⟩
  · rw [spell_eq_intercalate hne]
    exact ⟨_, rfl⟩
  · rw [splitOn_spell hne hslash, List.mem_cons] at hsegment
    rcases hsegment with rfl | hname
    · simp [IsDots]
    · exact hdots segment hname
  · obtain ⟨name, hname, hmem⟩ := List.mem_flatMap.1 hc
    rcases List.mem_cons.1 hmem with rfl | hmem
    · exact h.subset List.mem_cons_self
    · exact (hnames name hname).2.2 hmem
  · rw [rewriteDots_nil_spell hslash, keepSegments_of_names hdots]
    rfl

theorem removeDotSegments_eq_self_iff {target : List Char} (h : ['/'] <+: target) :
    removeDotSegments target = target ↔
      ∀ segment ∈ (dropQuery target).splitOn '/', ¬ IsDots segment := by
  have hpath := slash_dropQuery h
  have hwhole : dropQuery target ++ target.dropWhile (· ≠ '?') = target :=
    List.takeWhile_append_dropWhile
  have hself : removeDotSegments target = target ↔
      rewriteDots [] (dropQuery target) = dropQuery target := by
    rw [removeDotSegments_eq h]
    constructor
    · intro heq
      exact List.append_cancel_right (heq.trans hwhole.symm)
    · intro heq
      rw [heq, hwhole]
  rw [hself]
  constructor
  · intro heq
    rw [← heq]
    exact (rewriteDots_clean hpath).2.1
  · intro hdots
    obtain ⟨segments, hne, hslash, hspell⟩ := exists_spell_eq hpath
    rw [hspell, splitOn_spell hne hslash] at hdots
    rw [hspell, rewriteDots_nil_spell hslash,
      keepSegments_of_names (List.forall_mem_cons.1 hdots).2]
    rfl

theorem query_append {front : List Char} (h : '?' ∉ front) (target : List Char) :
    dropQuery (front ++ target) = front ++ dropQuery target ∧
      (front ++ target).dropWhile (· ≠ '?') = target.dropWhile (· ≠ '?') := by
  have hpass : ∀ c ∈ front, decide (c ≠ '?') = true := by
    simpa using fun c hc => ne_of_mem_of_not_mem hc h
  exact ⟨List.takeWhile_append_of_pos hpass, List.dropWhile_append_of_pos hpass⟩

theorem query_dropWhile (target : List Char) :
    dropQuery (target.dropWhile (· ≠ '?')) = [] ∧
      (target.dropWhile (· ≠ '?')).dropWhile (· ≠ '?') = target.dropWhile (· ≠ '?') := by
  have hquery : (target.dropWhile (· ≠ '?')).dropWhile (· ≠ '?') = target.dropWhile (· ≠ '?') :=
    List.dropWhile_idempotent _ _
  have hwhole := List.takeWhile_append_dropWhile (p := (· ≠ '?'))
    (l := target.dropWhile (· ≠ '?'))
  rw [hquery] at hwhole
  exact ⟨List.append_left_eq_self.1 hwhole, hquery⟩

/-- **What taking the dot segments out does:** the path is rewritten and the query stays. There is
no dot segment left, and nothing to take out a second time. -/
theorem removeDotSegments_spec {target : List Char} (h : ['/'] <+: target) :
    dropQuery (removeDotSegments target) = rewriteDots [] (dropQuery target) ∧
      (removeDotSegments target).dropWhile (· ≠ '?') = target.dropWhile (· ≠ '?') ∧
      (∀ segment ∈ (dropQuery (removeDotSegments target)).splitOn '/', ¬ IsDots segment) ∧
      rewriteDots [] (dropQuery (removeDotSegments target)) =
        dropQuery (removeDotSegments target) ∧
      removeDotSegments (removeDotSegments target) = removeDotSegments target := by
  obtain ⟨hslash, hclean, hsubset, hagain⟩ := rewriteDots_clean (slash_dropQuery h)
  have hpath : '?' ∉ rewriteDots [] (dropQuery target) := fun hmem => by
    simpa using List.mem_takeWhile_imp (hsubset hmem)
  obtain ⟨hnone, hback⟩ := query_dropWhile target
  obtain ⟨hfront, hquery⟩ := query_append hpath (target.dropWhile (· ≠ '?'))
  rw [← removeDotSegments_eq h, hnone, List.append_nil] at hfront
  rw [← removeDotSegments_eq h, hback] at hquery
  have hdots : ∀ segment ∈ (dropQuery (removeDotSegments target)).splitOn '/',
      ¬ IsDots segment := by
    rw [hfront]
    exact hclean
  refine ⟨hfront, hquery, hdots, ?_, (removeDotSegments_eq_self_iff ⟨_, rfl⟩).2 hdots⟩
  rw [hfront]
  exact hagain

end WebClient.Endpoint
