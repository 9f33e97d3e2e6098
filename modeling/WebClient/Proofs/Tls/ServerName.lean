import Mathlib.Data.List.Basic
import WebClient.Proofs.Text.Letter
import WebClient.Tls.ServerName

/-!
# Server names in any letter case

A host is a server name in every letter case or in none. A DNS name is cut at its dots, and an
address at its dots and colons, and what stands between them is looked at without regard to the
case of letters. So each part of a reader that comes to the rest of a text comes to the same rest in
the other case.
-/

namespace WebClient

open Text (IsMark toLower_eq_iff)

/-! ### Addresses -/

namespace IpAddress

/-- What has been read from a text, with the rest of it in small letters. -/
def lowerRest {α : Type} (read : α × List Char) : α × List Char :=
  (read.1, read.2.map Char.toLower)

/-- A reader of the front of a text that does not see the case of letters. -/
def Caseless {α : Type} (read? : List Char → Option (α × List Char)) : Prop :=
  ∀ cs, read? (cs.map Char.toLower) = (read? cs).map lowerRest

theorem Caseless.bind {α β : Type} {read? : List Char → Option (α × List Char)}
    {next? : α → List Char → Option (β × List Char)} (hread : Caseless read?)
    (hnext : ∀ a, Caseless (next? a)) :
    Caseless fun cs => (read? cs).bind fun read => next? read.1 read.2 := by
  intro cs
  dsimp only
  rw [hread]
  cases read? cs with
  | none => rfl
  | some read => exact hnext read.1 read.2

theorem Caseless.pure {α : Type} (a : α) : Caseless fun cs => some (a, cs) :=
  fun _ => rfl

/-- What stands behind a mark at the front of a text. -/
def behindMark? (mark : Char) : List Char → Option (List Char)
  | c :: cs => if c = mark then some cs else none
  | [] => none

theorem behindMark?_eq_some_iff {mark : Char} {cs rest : List Char} :
    behindMark? mark cs = some rest ↔ cs = mark :: rest := by
  cases cs <;> simp [behindMark?, eq_comm]

theorem behindMark?_toLower {mark : Char} (hmark : IsMark mark) (cs : List Char) :
    behindMark? mark (cs.map Char.toLower) = (behindMark? mark cs).map (·.map Char.toLower) := by
  cases cs with
  | nil => rfl
  | cons c cs =>
    simp only [List.map_cons, behindMark?, toLower_eq_iff hmark]
    split <;> rfl

theorem caseless_readNumber? (base largest digits : Nat) :
    Caseless (readNumber? base largest digits) := by
  intro cs
  have hdigit : (fun c => (Text.digitValue? base c).isSome) ∘ Char.toLower =
      fun c => (Text.digitValue? base c).isSome :=
    funext fun c => by simp [Text.digitValue?_toLower]
  simp only [readNumber?, List.takeWhile_map, List.dropWhile_map, hdigit, List.isEmpty_map,
    List.length_map, Text.digitsFrom?_toLower]
  split
  · rfl
  · rw [Option.map_map]
    rfl

theorem caseless_readOctet? : Caseless readOctet? := by
  intro cs
  have hmark : IsMark '0' := by decide
  have hzero : (cs.map Char.toLower).head? = some '0' ↔ cs.head? = some '0' := by
    cases cs <;> simp [toLower_eq_iff hmark]
  simp only [readOctet?, caseless_readNumber? 10 255 3 cs]
  cases readNumber? 10 255 3 cs with
  | none => rfl
  | some read =>
    simp only [Option.map_some, lowerRest, List.length_map, hzero]
    split <;> rfl

theorem readDotOctet?_eq (cs : List Char) :
    readDotOctet? cs = (behindMark? '.' cs).bind readOctet? := by
  unfold readDotOctet? behindMark?
  split
  · rfl
  · next hdot =>
    split
    · next c rest =>
      have hne : c ≠ '.' := fun h => hdot rest (by rw [h])
      rw [if_neg hne]
      rfl
    · rfl

theorem caseless_readDotOctet? : Caseless readDotOctet? := by
  intro cs
  rw [readDotOctet?_eq, readDotOctet?_eq, behindMark?_toLower (by decide)]
  cases behindMark? '.' cs with
  | none => rfl
  | some rest => exact caseless_readOctet? rest

theorem caseless_readV4? : Caseless readV4? :=
  caseless_readOctet?.bind fun a => caseless_readDotOctet?.bind fun b =>
    caseless_readDotOctet?.bind fun c => caseless_readDotOctet?.bind fun d =>
      Caseless.pure (a, b, c, d)

theorem readGroups_succ (count : Nat) (leading : Bool) (cs : List Char) :
    readGroups (count + 1) leading cs =
      match if leading then some cs else behindMark? ':' cs with
      | none => ([], cs, false)
      | some body =>
        match if count = 0 then none else readV4? body with
        | some ((a, b, c, d), rest) => ([groupOf a b, groupOf c d], rest, true)
        | none =>
          match readNumber? 16 0xFFFF 4 body with
          | none => ([], cs, false)
          | some (group, rest) =>
            let (groups, rest, dotted) := readGroups count false rest
            (UInt16.ofNat group :: groups, rest, dotted) := by
  cases leading with
  | true => rfl
  | false =>
    rcases cs with _ | ⟨c, cs⟩
    · rfl
    · by_cases hcolon : c = ':'
      · subst hcolon
        rfl
      · rw [readGroups]
        · simp [behindMark?, hcolon]
        · exact fun rest h => hcolon (List.cons.inj h).1

theorem readGroups_toLower (count : Nat) (leading : Bool) (cs : List Char) :
    readGroups count leading (cs.map Char.toLower) =
      ((readGroups count leading cs).1, (readGroups count leading cs).2.1.map Char.toLower,
        (readGroups count leading cs).2.2) := by
  induction count generalizing leading cs with
  | zero => rfl
  | succ count ih =>
    have hbody : (if leading then some (cs.map Char.toLower) else
          behindMark? ':' (cs.map Char.toLower)) =
        (if leading then some cs else behindMark? ':' cs).map (·.map Char.toLower) := by
      rw [behindMark?_toLower (by decide)]
      split <;> rfl
    rw [readGroups_succ, readGroups_succ, hbody]
    cases if leading then some cs else behindMark? ':' cs with
    | none => rfl
    | some body =>
      have hv4 : (if count = 0 then none else readV4? (body.map Char.toLower)) =
          (if count = 0 then none else readV4? body).map lowerRest := by
        rw [caseless_readV4? body]
        split <;> rfl
      simp only [Option.map_some, hv4, caseless_readNumber? 16 0xFFFF 4 body]
      rcases if count = 0 then none else readV4? body with _ | ⟨⟨a, b, c, d⟩, rest⟩
      · rcases readNumber? 16 0xFFFF 4 body with _ | ⟨group, rest⟩
        · rfl
        · simp only [Option.map_none, Option.map_some, lowerRest, ih]
      · rfl

theorem readV6?_eq (cs : List Char) :
    readV6? cs =
      match readGroups 8 true cs with
      | (front, rest, dotted) =>
        if front.length = 8 then (ofGroups? front).map (·, rest)
        else if dotted then none
        else ((behindMark? ':' rest).bind (behindMark? ':')).bind fun rest =>
          match readGroups (7 - front.length) true rest with
          | (back, rest, _) =>
            let zeros := List.replicate (8 - front.length - back.length) 0
            (ofGroups? (front ++ zeros ++ back)).map (·, rest) := by
  unfold readV6?
  rcases readGroups 8 true cs with ⟨front, rest, dotted⟩
  dsimp only
  split
  · rfl
  · split
    · rfl
    · split
      · rfl
      · next hcolons =>
        have hnone : (behindMark? ':' rest).bind (behindMark? ':') = none := by
          by_contra hsome
          obtain ⟨back, hback⟩ := Option.ne_none_iff_exists'.1 hsome
          obtain ⟨behind, hone, htwo⟩ := Option.bind_eq_some_iff.1 hback
          rw [behindMark?_eq_some_iff] at hone htwo
          exact hcolons back (by rw [hone, htwo])
        rw [hnone]
        rfl

theorem caseless_readV6? : Caseless readV6? := by
  intro cs
  rw [readV6?_eq, readV6?_eq, readGroups_toLower]
  rcases readGroups 8 true cs with ⟨front, rest, dotted⟩
  dsimp only
  split
  · rw [Option.map_map]
    rfl
  · split
    · rfl
    · have hmark : IsMark ':' := by decide
      rw [behindMark?_toLower hmark]
      cases behindMark? ':' rest with
      | none => rfl
      | some rest =>
        simp only [Option.map_some, Option.bind_some, behindMark?_toLower hmark]
        cases behindMark? ':' rest with
        | none => rfl
        | some rest =>
          simp only [Option.map_some, Option.bind_some, readGroups_toLower, Option.map_map]
          rfl

/-- Whether a text is an address, and which, does not depend on the case of its letters. -/
theorem parse?_lower (s : String) : parse? (Text.lower s) = parse? s := by
  simp only [parse?, Text.toList_lower, caseless_readV4? s.toList, caseless_readV6? s.toList]
  rcases readV4? s.toList with _ | ⟨⟨a, b, c, d⟩, _ | ⟨c, rest⟩⟩
  all_goals rcases readV6? s.toList with _ | ⟨address, _ | ⟨c, rest⟩⟩
  all_goals rfl

end IpAddress

/-! ### DNS names -/

namespace ServerName

theorem isLabelChar_toLower (c : Char) : isLabelChar c.toLower = isLabelChar c :=
  Text.forall_toLower (P := fun c small => isLabelChar small = isLabelChar c) (fun _ => rfl)
    (by decide) c

theorem isDigit_toLower (c : Char) : c.toLower.isDigit = c.isDigit :=
  Text.forall_toLower (P := fun c small => small.isDigit = c.isDigit) (fun _ => rfl) (by decide) c

theorem isLabel_toLower (label : List Char) :
    isLabel (label.map Char.toLower) = isLabel label := by
  have hmark : IsMark '-' := by decide
  have hhyphen (c? : Option Char) : c?.map Char.toLower = some '-' ↔ c? = some '-' := by
    cases c? <;> simp [toLower_eq_iff hmark]
  have hall : isLabelChar ∘ Char.toLower = isLabelChar := funext isLabelChar_toLower
  simp only [isLabel, List.isEmpty_map, List.length_map, List.all_map, List.head?_map,
    List.getLast?_map, hall, ne_eq, hhyphen]

theorem labels_toLower (name : List Char) :
    labels (name.map Char.toLower) = (labels name).map (·.map Char.toLower) := by
  have hempty (label? : Option (List Char)) :
      label?.map (·.map Char.toLower) = some [] ↔ label? = some [] := by
    cases label? <;> simp
  have hdot : IsMark '.' := by decide
  simp only [labels, Text.splitOn_toLower hdot, List.getLast?_map, hempty]
  split
  · exact List.map_dropLast.symm
  · rfl

theorem isDnsName_lower (name : String) : isDnsName (Text.lower name) = isDnsName name := by
  have hlabel : isLabel ∘ (List.map Char.toLower) = isLabel := funext isLabel_toLower
  have hdigit : Char.isDigit ∘ Char.toLower = Char.isDigit := funext isDigit_toLower
  have hlast (label? : Option (List Char)) :
      (label?.map (·.map Char.toLower)).any (·.all Char.isDigit) =
        label?.any (·.all Char.isDigit) := by
    cases label? <;> simp [hdigit]
  simp only [isDnsName, Text.utf8ByteSize_lower, Text.toList_lower, labels_toLower,
    List.isEmpty_map, List.all_map, List.getLast?_map, hlabel, hlast]

/-- **A host is a server name in every letter case or in none.** -/
theorem isSome_parse?_of_eqIgnoringCase {host other : String}
    (h : Text.eqIgnoringCase host other = true) :
    (parse? host).isSome = (parse? other).isSome := by
  have hlower (host : String) : (parse? (Text.lower host)).isSome = (parse? host).isSome := by
    simp only [parse?, isDnsName_lower, IpAddress.parse?_lower]
    split <;> rfl
  rw [← hlower host, ← hlower other, Text.eqIgnoringCase_iff.1 h]

end ServerName

end WebClient
