import WebClient.Proofs.Frame.RoundTrip
import WebClient.Proofs.Frame.TextMessage

/-!
# Messages in fragments

A message is a final data frame, or a data frame that is not final with Continuation frames behind
it, of which the last and no other is final. Control frames and frames whose opcode is reserved may
stand anywhere (`StartsMessages` speaks of the data frames alone). A reader remembers one thing of
the frames behind it, the kind of the message in progress, and that is enough: the rows of frames
that lead from one such memory to another (`Follows`) are those that start a row of messages
(`startsMessages_iff`), and a frame is refused exactly where nothing `Follows`.
-/

namespace WebClient

/-! ### The frames of a message -/

/-- What a frame is to the messages: the first frame of one, a further frame of one, or no part of
any. -/
inductive FramePart where
  | first (kind : MessageKind)
  | next
  | aside
  deriving DecidableEq

inductive CloseRead : (payload : Bytes) → CloseCode → (reason : String) → Prop
  | bare : CloseRead [] CloseCode.noStatus ""
  | coded (code : CloseCode) (reason : String) :
    CloseRead (Bytes.ofNat 2 code.toNat ++ Bytes.ofString reason) code reason

namespace ServerFrame

def opcode? (f : ServerFrame) : Option Opcode :=
  Opcode.ofCode? f.head.code

def part (f : ServerFrame) : FramePart :=
  match f.opcode? with
  | some .text => .first .text
  | some .binary => .first .binary
  | some .continuation => .next
  | some .close | some .ping | some .pong | none => .aside

/-- The frames that are left when control frames and frames whose opcode is reserved are deleted. -/
def parts (frames : List ServerFrame) : List ServerFrame :=
  frames.filter (·.part ≠ .aside)

/-- The payload is one that the opcode allows: each Text or Continuation frame is a text of its own,
and a Close frame says why, or nothing. -/
def WellFormed (f : ServerFrame) : Prop :=
  match f.opcode? with
  | some .text | some .continuation => ∃ text, f.payload = Bytes.ofString text
  | some .close => ∃ code reason, CloseRead f.payload code reason
  | some .binary | some .ping | some .pong | none => True

/-- The kind of the last message that frames have started. -/
def started? (frames : List ServerFrame) : Option MessageKind :=
  (frames.filterMap fun f =>
    match f.part with
    | .first kind => some kind
    | .next | .aside => none).getLast?

/-- What a frame comes out as, behind frames of which the last to start a message started one of the
given kind. -/
inductive ComesOut (f : ServerFrame) : (started : Option MessageKind) → Received → Prop
  | first {kind : MessageKind} {started : Option MessageKind} {received : Received}
    (hpart : f.part = .first kind) (h : DataRead kind f.payload f.head.fin received) :
    ComesOut f started received
  | next {kind : MessageKind} {received : Received} (hpart : f.part = .next)
    (h : DataRead kind f.payload f.head.fin received) : ComesOut f (some kind) received
  | ping {started : Option MessageKind} (hopcode : f.opcode? = some .ping) :
    ComesOut f started (.ping f.payload)
  | pong {started : Option MessageKind} (hopcode : f.opcode? = some .pong) :
    ComesOut f started (.pong f.payload)
  | close {started : Option MessageKind} {code : CloseCode} {reason : String}
    (hopcode : f.opcode? = some .close) (h : CloseRead f.payload code reason) :
    ComesOut f started (.close code reason)
  | unknown {started : Option MessageKind} (hopcode : f.opcode? = none) :
    ComesOut f started (.unknown f.head.code)

/-- What frames come out as, one for one, behind others. -/
inductive ComeOut : (before frames : List ServerFrame) → List Received → Prop
  | nil (before : List ServerFrame) : ComeOut before [] []
  | cons {before frames : List ServerFrame} {f : ServerFrame} {received : Received}
    {later : List Received} (h : f.ComesOut (started? before) received)
    (hlater : ComeOut (before ++ [f]) frames later) :
    ComeOut before (f :: frames) (received :: later)

/-- The frames of one message. -/
inductive IsMessage : List ServerFrame → Prop
  | whole {kind : MessageKind} {f : ServerFrame} (hpart : f.part = .first kind)
    (hfin : f.head.fin = true) : IsMessage [f]
  | fragmented {kind : MessageKind} {first last : ServerFrame} {between : List ServerFrame}
    (hfirst : first.part = .first kind) (hopen : first.head.fin = false)
    (hbetween : ∀ f ∈ between, f.part = .next ∧ f.head.fin = false)
    (hlast : last.part = .next) (hfin : last.head.fin = true) :
    IsMessage (first :: (between ++ [last]))

/-- The data frames among the frames are a prefix of a row of messages. -/
def StartsMessages (frames : List ServerFrame) : Prop :=
  ∃ messages : List (List ServerFrame),
    (∀ message ∈ messages, IsMessage message) ∧ parts frames <+: messages.flatten

/-! ### What is in progress -/

/-- What is in progress behind a data frame of a message. -/
def progress (kind : MessageKind) (f : ServerFrame) : Option MessageKind :=
  if f.head.fin then none else some kind

/-- Frames that may stand where a message of a kind is in progress, or none, and what is in progress
behind them. -/
inductive Follows : Option MessageKind → List ServerFrame → Option MessageKind → Prop
  | nil (here : Option MessageKind) : Follows here [] here
  | first {kind : MessageKind} {behind : Option MessageKind} {f : ServerFrame}
    {frames : List ServerFrame} (hpart : f.part = .first kind)
    (h : Follows (f.progress kind) frames behind) : Follows none (f :: frames) behind
  | next {kind : MessageKind} {behind : Option MessageKind} {f : ServerFrame}
    {frames : List ServerFrame} (hpart : f.part = .next)
    (h : Follows (f.progress kind) frames behind) : Follows (some kind) (f :: frames) behind
  | aside {here behind : Option MessageKind} {f : ServerFrame} {frames : List ServerFrame}
    (hpart : f.part = .aside) (h : Follows here frames behind) : Follows here (f :: frames) behind

/-! Where a frame may stand depends on its part. -/

theorem follows_of_first {here behind : Option MessageKind} {f : ServerFrame} {kind : MessageKind}
    (hpart : f.part = .first kind) {frames : List ServerFrame} :
    Follows here (f :: frames) behind ↔ here = none ∧ Follows (f.progress kind) frames behind := by
  constructor
  · intro h
    cases h with
    | first hfirst h =>
      obtain rfl := FramePart.first.inj (hpart.symm.trans hfirst)
      exact ⟨rfl, h⟩
    | next hnext => simp [hpart] at hnext
    | aside haside => simp [hpart] at haside
  · rintro ⟨rfl, h⟩
    exact .first hpart h

theorem follows_of_next {here behind : Option MessageKind} {f : ServerFrame}
    (hpart : f.part = .next) {frames : List ServerFrame} :
    Follows here (f :: frames) behind ↔
      ∃ kind, here = some kind ∧ Follows (f.progress kind) frames behind := by
  constructor
  · intro h
    cases h with
    | first hfirst => simp [hpart] at hfirst
    | next hnext h => exact ⟨_, rfl, h⟩
    | aside haside => simp [hpart] at haside
  · rintro ⟨kind, rfl, h⟩
    exact .next hpart h

theorem follows_of_aside {here behind : Option MessageKind} {f : ServerFrame}
    (hpart : f.part = .aside) {frames : List ServerFrame} :
    Follows here (f :: frames) behind ↔ Follows here frames behind := by
  refine ⟨fun h => ?_, .aside hpart⟩
  cases h with
  | first hfirst => simp [hpart] at hfirst
  | next hnext => simp [hpart] at hnext
  | aside _ h => exact h

theorem follows_append_iff {here behind : Option MessageKind} {frames later : List ServerFrame} :
    Follows here (frames ++ later) behind ↔
      ∃ between, Follows here frames between ∧ Follows between later behind := by
  induction frames generalizing here with
  | nil =>
    refine ⟨fun h => ⟨here, .nil here, h⟩, ?_⟩
    rintro ⟨between, h, hlater⟩
    cases h with
    | nil => exact hlater
  | cons f frames ih =>
    rw [List.cons_append]
    cases hpart : f.part with
    | first kind => simp only [follows_of_first hpart, ih, exists_and_left, and_assoc]
    | next =>
      simp only [follows_of_next hpart, ih]
      constructor
      · rintro ⟨kind, rfl, between, h, hlater⟩
        exact ⟨between, ⟨kind, rfl, h⟩, hlater⟩
      · rintro ⟨between, ⟨kind, rfl, h⟩, hlater⟩
        exact ⟨kind, rfl, between, h, hlater⟩
    | aside => simp only [follows_of_aside hpart, ih]

theorem Follows.unique {here behind other : Option MessageKind} {frames : List ServerFrame}
    (h : Follows here frames behind) (hother : Follows here frames other) : behind = other := by
  induction h with
  | nil here =>
    cases hother with
    | nil => rfl
  | first hpart h ih => exact ih ((follows_of_first hpart).1 hother).2
  | next hpart h ih =>
    obtain ⟨kind, hkind, hother⟩ := (follows_of_next hpart).1 hother
    obtain rfl := Option.some.inj hkind
    exact ih hother
  | aside hpart h ih => exact ih ((follows_of_aside hpart).1 hother)

theorem parts_of_aside {f : ServerFrame} (hpart : f.part = .aside) (frames : List ServerFrame) :
    parts (f :: frames) = parts frames :=
  List.filter_cons_of_neg (by simp [hpart])

theorem parts_of_ne {f : ServerFrame} (hpart : f.part ≠ .aside) (frames : List ServerFrame) :
    parts (f :: frames) = f :: parts frames :=
  List.filter_cons_of_pos (by simp [hpart])

/-- Frames that belong to no message make no difference. -/
theorem follows_parts_iff {here behind : Option MessageKind} {frames : List ServerFrame} :
    Follows here (parts frames) behind ↔ Follows here frames behind := by
  induction frames generalizing here with
  | nil => exact .rfl
  | cons f frames ih =>
    cases hpart : f.part with
    | first kind =>
      rw [parts_of_ne (by simp [hpart]), follows_of_first hpart, follows_of_first hpart, ih]
    | next =>
      rw [parts_of_ne (by simp [hpart]), follows_of_next hpart, follows_of_next hpart]
      simp only [ih]
    | aside => rw [parts_of_aside hpart, follows_of_aside hpart, ih]

/-! ### Rows of messages -/

theorem follows_between {kind : MessageKind} {between : List ServerFrame}
    (hbetween : ∀ f ∈ between, f.part = .next ∧ f.head.fin = false) :
    Follows (some kind) between (some kind) := by
  induction between with
  | nil => exact .nil _
  | cons f between ih =>
    obtain ⟨⟨hpart, hopen⟩, hlater⟩ := List.forall_mem_cons.1 hbetween
    refine .next hpart ?_
    rw [progress, hopen]
    exact ih hlater

theorem IsMessage.follows {message : List ServerFrame} (h : IsMessage message) :
    Follows none message none := by
  cases h with
  | whole hpart hfin =>
    refine .first hpart ?_
    rw [progress, hfin]
    exact .nil none
  | @fragmented kind first last between hfirst hopen hbetween hlast hfin =>
    refine .first hfirst ?_
    rw [progress, hopen]
    refine follows_append_iff.2 ⟨_, follows_between hbetween, .next hlast ?_⟩
    rw [progress, hfin]
    exact .nil none

theorem follows_flatten {messages : List (List ServerFrame)}
    (h : ∀ message ∈ messages, IsMessage message) : Follows none messages.flatten none := by
  induction messages with
  | nil => exact .nil none
  | cons message messages ih =>
    obtain ⟨hmessage, hlater⟩ := List.forall_mem_cons.1 h
    exact follows_append_iff.2 ⟨none, hmessage.follows, ih hlater⟩

def closing : ServerFrame where
  head := { fin := true, code := Opcode.continuation.code }
  form := .short
  payload := []
  code_lt := by decide
  fits := by decide
  control := by decide

/-- What is left to come where a message of a kind is in progress, or none: the rest of that
message, and further ones. -/
inductive IsRest : Option MessageKind → List ServerFrame → Prop
  | fresh {messages : List (List ServerFrame)} (h : ∀ message ∈ messages, IsMessage message) :
    IsRest none messages.flatten
  | inside {kind : MessageKind} {between : List ServerFrame} {last : ServerFrame}
    {messages : List (List ServerFrame)}
    (hbetween : ∀ f ∈ between, f.part = .next ∧ f.head.fin = false) (hlast : last.part = .next)
    (hfin : last.head.fin = true) (h : ∀ message ∈ messages, IsMessage message) :
    IsRest (some kind) (between ++ last :: messages.flatten)

theorem exists_isRest (here : Option MessageKind) : ∃ rest, IsRest here rest := by
  cases here with
  | none => exact ⟨_, .fresh (List.forall_mem_nil _)⟩
  | some kind =>
    have hlast : closing.part = .next := rfl
    exact ⟨_, .inside (List.forall_mem_nil _) hlast rfl (List.forall_mem_nil _)⟩

theorem IsRest.first {kind : MessageKind} {f : ServerFrame} {rest : List ServerFrame}
    (hpart : f.part = .first kind) (h : IsRest (f.progress kind) rest) :
    IsRest none (f :: rest) := by
  cases hfin : f.head.fin with
  | true =>
    rw [progress, hfin] at h
    cases h with
    | fresh h => exact .fresh (List.forall_mem_cons.2 ⟨.whole hpart hfin, h⟩)
  | false =>
    rw [progress, hfin] at h
    cases h with
    | @inside _ between last messages hbetween hlast hend h =>
      have hmessage : IsMessage (f :: (between ++ [last])) :=
        .fragmented hpart hfin hbetween hlast hend
      have hrest := IsRest.fresh (List.forall_mem_cons.2 ⟨hmessage, h⟩)
      simpa using hrest

theorem IsRest.next {kind : MessageKind} {f : ServerFrame} {rest : List ServerFrame}
    (hpart : f.part = .next) (h : IsRest (f.progress kind) rest) :
    IsRest (some kind) (f :: rest) := by
  cases hfin : f.head.fin with
  | true =>
    rw [progress, hfin] at h
    cases h with
    | fresh h => exact .inside (List.forall_mem_nil _) hpart hfin h
  | false =>
    rw [progress, hfin] at h
    cases h with
    | inside hbetween hlast hend h =>
      exact .inside (List.forall_mem_cons.2 ⟨⟨hpart, hfin⟩, hbetween⟩) hlast hend h

/-- Whatever has been started can be finished. -/
theorem Follows.exists_isRest {here behind : Option MessageKind} {frames : List ServerFrame}
    (h : Follows here frames behind) : ∃ rest, IsRest here (parts frames ++ rest) := by
  induction h with
  | nil here => exact ServerFrame.exists_isRest here
  | first hpart h ih =>
    obtain ⟨rest, hrest⟩ := ih
    rw [parts_of_ne (by simp [hpart])]
    exact ⟨rest, hrest.first hpart⟩
  | next hpart h ih =>
    obtain ⟨rest, hrest⟩ := ih
    rw [parts_of_ne (by simp [hpart])]
    exact ⟨rest, hrest.next hpart⟩
  | aside hpart h ih =>
    rw [parts_of_aside hpart]
    exact ih

/-- **What is in progress says all of the frames so far.** -/
theorem startsMessages_iff {frames : List ServerFrame} :
    StartsMessages frames ↔ ∃ behind, Follows none frames behind := by
  constructor
  · rintro ⟨messages, hmessages, later, hlater⟩
    have h := follows_flatten hmessages
    rw [← hlater] at h
    obtain ⟨behind, h, -⟩ := follows_append_iff.1 h
    exact ⟨behind, follows_parts_iff.1 h⟩
  · rintro ⟨behind, h⟩
    obtain ⟨rest, hrest⟩ := h.exists_isRest
    generalize hwhole : parts frames ++ rest = whole at hrest
    cases hrest with
    | fresh hmessages => exact ⟨_, hmessages, rest, hwhole⟩

/-! ### What frames are -/

theorem opcode?_of_first {f : ServerFrame} {kind : MessageKind} (hpart : f.part = .first kind) :
    f.opcode? = some kind.opcode := by
  unfold part at hpart
  split at hpart
  case h_1 hopcode =>
    cases hpart
    exact hopcode
  case h_2 hopcode =>
    cases hpart
    exact hopcode
  all_goals cases hpart

theorem opcode?_of_next {f : ServerFrame} (hpart : f.part = .next) :
    f.opcode? = some .continuation := by
  unfold part at hpart
  split at hpart
  case h_3 hopcode => exact hopcode
  all_goals cases hpart

theorem exists_dataRead {payload : Bytes} (h : ∃ text, payload = Bytes.ofString text)
    (kind : MessageKind) (fin : Bool) : ∃ received, DataRead kind payload fin received := by
  obtain ⟨text, rfl⟩ := h
  cases kind with
  | text => exact ⟨_, .text text fin⟩
  | binary => exact ⟨_, .binary _ fin⟩

theorem WellFormed.exists_first {f : ServerFrame} (h : f.WellFormed) {kind : MessageKind}
    (hpart : f.part = .first kind) :
    ∃ received, DataRead kind f.payload f.head.fin received := by
  rw [WellFormed, opcode?_of_first hpart] at h
  cases kind with
  | text => exact exists_dataRead h .text f.head.fin
  | binary => exact ⟨_, .binary f.payload f.head.fin⟩

theorem WellFormed.exists_next {f : ServerFrame} (h : f.WellFormed) (hpart : f.part = .next)
    (kind : MessageKind) : ∃ received, DataRead kind f.payload f.head.fin received := by
  rw [WellFormed, opcode?_of_next hpart] at h
  exact exists_dataRead h kind f.head.fin

theorem started?_append_of_first {f : ServerFrame} {kind : MessageKind}
    (hpart : f.part = .first kind) (before : List ServerFrame) :
    started? (before ++ [f]) = some kind := by
  simp [started?, hpart]

theorem started?_append_of_other {f : ServerFrame} (hpart : f.part = .next ∨ f.part = .aside)
    (before : List ServerFrame) : started? (before ++ [f]) = started? before := by
  rcases hpart with hpart | hpart
  · simp [started?, hpart]
  · simp [started?, hpart]

end ServerFrame

namespace Received

def isData : Received → Bool
  | text _ _ | binary _ _ => true
  | ping _ | pong _ | close _ _ | unknown _ => false

end Received

namespace FrameReader

open ServerFrame

/-! ### What the reader makes of a frame -/

theorem readClose_of_closeRead {payload : Bytes} {code : CloseCode} {reason : String}
    (h : CloseRead payload code reason) : readClose payload = .ok (.close code reason) := by
  cases h with
  | bare => rfl
  | coded code reason => exact readClose_code code reason

theorem classify_of_aside {f : ServerFrame} (hwell : f.WellFormed) (hpart : f.part = .aside) :
    ∃ received, received.isData = false ∧ (∀ started, f.ComesOut started received) ∧
      ∀ r : FrameReader, r.classify f.head f.payload = (r, .ok received) := by
  unfold part at hpart
  split at hpart
  case h_4 hopcode =>
    rw [WellFormed, hopcode] at hwell
    obtain ⟨code, reason, hclose⟩ := hwell
    refine ⟨.close code reason, rfl, fun _ => .close hopcode hclose, fun r => ?_⟩
    rw [opcode?] at hopcode
    rw [classify, hopcode]
    exact congrArg (Prod.mk r) (readClose_of_closeRead hclose)
  case h_5 hopcode =>
    refine ⟨.ping f.payload, rfl, fun _ => .ping hopcode, fun r => ?_⟩
    rw [opcode?] at hopcode
    rw [classify, hopcode]
  case h_6 hopcode =>
    refine ⟨.pong f.payload, rfl, fun _ => .pong hopcode, fun r => ?_⟩
    rw [opcode?] at hopcode
    rw [classify, hopcode]
  case h_7 hopcode =>
    refine ⟨.unknown f.head.code, rfl, fun _ => .unknown hopcode, fun r => ?_⟩
    rw [opcode?] at hopcode
    rw [classify, hopcode]
  all_goals cases hpart

theorem classify_eq_startMessage {f : ServerFrame} {kind : MessageKind}
    (hpart : f.part = .first kind) (r : FrameReader) :
    r.classify f.head f.payload = r.startMessage kind f.head.fin f.payload := by
  have hopcode := opcode?_of_first hpart
  rw [opcode?] at hopcode
  rw [classify, hopcode]
  cases kind <;> rfl

theorem classify_eq_continueMessage {f : ServerFrame} (hpart : f.part = .next) (r : FrameReader) :
    r.classify f.head f.payload = r.continueMessage f.head.fin f.payload := by
  have hopcode := opcode?_of_next hpart
  rw [opcode?] at hopcode
  rw [classify, hopcode]

theorem classify_of_first {f : ServerFrame} {kind : MessageKind} (hpart : f.part = .first kind)
    {received : Received} (h : DataRead kind f.payload f.head.fin received) :
    classify { fragment := none } f.head f.payload =
      ({ fragment := f.progress kind }, .ok received) := by
  rw [classify_eq_startMessage hpart]
  exact readData_eq h _

theorem classify_of_next {f : ServerFrame} {kind : MessageKind} (hpart : f.part = .next)
    {received : Received} (h : DataRead kind f.payload f.head.fin received) :
    classify { fragment := some kind } f.head f.payload =
      ({ fragment := f.progress kind }, .ok received) := by
  rw [classify_eq_continueMessage hpart]
  exact readData_eq h _

/-- A frame that may not stand where it does, and how it is refused. -/
inductive Breaks (f : ServerFrame) : Option MessageKind → Error → Prop
  | first {kind unfinished : MessageKind} (hpart : f.part = .first kind) :
    Breaks f (some unfinished) .expectedContinuation
  | next (hpart : f.part = .next) : Breaks f none .nothingToContinue

theorem classify_of_breaks {f : ServerFrame} {here : Option MessageKind} {e : Error}
    (h : Breaks f here e) :
    classify { fragment := here } f.head f.payload = ({ fragment := here }, .error e) := by
  cases h with
  | first hpart =>
    rw [classify_eq_startMessage hpart]
    rfl
  | next hpart =>
    rw [classify_eq_continueMessage hpart]
    rfl

theorem Breaks.not_follows {f : ServerFrame} {here behind : Option MessageKind} {e : Error}
    (h : Breaks f here e) : ¬ Follows here [f] behind := by
  cases h with
  | first hpart =>
    rw [follows_of_first hpart]
    simp
  | next hpart =>
    rw [follows_of_next hpart]
    simp

/-- Where frames do not follow, one of them is the first that may not stand where it does. -/
theorem exists_breaks (here : Option MessageKind) (frames : List ServerFrame) :
    (∃ behind, Follows here frames behind) ∨
      ∃ before bad after between e, frames = before ++ bad :: after ∧
        Follows here before between ∧ Breaks bad between e := by
  induction frames generalizing here with
  | nil => exact .inl ⟨here, .nil here⟩
  | cons f frames ih =>
    -- A frame that may stand here leaves the question to the frames behind it.
    have hlater (there : Option MessageKind)
        (hcons : ∀ {frames behind}, Follows there frames behind →
          Follows here (f :: frames) behind) :
        (∃ behind, Follows here (f :: frames) behind) ∨
          ∃ before bad after between e, f :: frames = before ++ bad :: after ∧
            Follows here before between ∧ Breaks bad between e := by
      rcases ih there with ⟨behind, h⟩ | ⟨before, bad, after, between, e, rfl, h, hbreaks⟩
      · exact .inl ⟨behind, hcons h⟩
      · exact .inr ⟨f :: before, bad, after, between, e, rfl, hcons h, hbreaks⟩
    cases hpart : f.part with
    | first kind =>
      cases here with
      | none => exact hlater _ (.first hpart)
      | some unfinished =>
        exact .inr ⟨[], f, frames, some unfinished, _, rfl, .nil _, .first hpart⟩
    | next =>
      cases here with
      | none => exact .inr ⟨[], f, frames, none, _, rfl, .nil _, .next hpart⟩
      | some kind => exact hlater _ (.next hpart)
    | aside => exact hlater here (.aside hpart)

/-! ### What the reader makes of frames -/

/-- What is in progress is a message of the kind that was started last. -/
def Remembers (here : Option MessageKind) (before : List ServerFrame) : Prop :=
  ∀ kind, here = some kind → started? before = some kind

theorem remembers_progress {before : List ServerFrame} {f : ServerFrame} {kind : MessageKind}
    (h : started? (before ++ [f]) = some kind) :
    Remembers (f.progress kind) (before ++ [f]) := by
  intro other hother
  rw [progress] at hother
  split at hother
  · nomatch hother
  · rw [h, hother]

/-- Frames that follow are read, and the reader stands where they lead. -/
theorem accept_of_follows {here behind : Option MessageKind} {frames : List ServerFrame}
    (h : Follows here frames behind) (hwell : ∀ f ∈ frames, f.WellFormed)
    {before : List ServerFrame} (hremembers : Remembers here before) :
    ∃ received, ComeOut before frames received ∧ ∀ later : List ServerFrame,
      accept { fragment := here } (frames ++ later) =
        (accept { fragment := behind } later).behind received := by
  induction h generalizing before with
  | nil here => exact ⟨[], .nil before, fun _ => rfl⟩
  | @first kind behind f frames hpart h ih =>
    obtain ⟨hf, hframes⟩ := List.forall_mem_cons.1 hwell
    obtain ⟨received, hread⟩ := hf.exists_first hpart
    have hstarted := started?_append_of_first hpart before
    obtain ⟨later, hlater, haccept⟩ := ih hframes (remembers_progress hstarted)
    refine ⟨received :: later, .cons (.first hpart hread) hlater, fun more => ?_⟩
    rw [List.cons_append, accept_of_ok (classify_of_first hpart hread), haccept]
    rfl
  | @next kind behind f frames hpart h ih =>
    obtain ⟨hf, hframes⟩ := List.forall_mem_cons.1 hwell
    obtain ⟨received, hread⟩ := hf.exists_next hpart kind
    have hbefore := hremembers kind rfl
    have hstarted := (started?_append_of_other (.inl hpart) before).trans hbefore
    obtain ⟨later, hlater, haccept⟩ := ih hframes (remembers_progress hstarted)
    have hout : f.ComesOut (started? before) received := by
      rw [hbefore]
      exact .next hpart hread
    refine ⟨received :: later, .cons hout hlater, fun more => ?_⟩
    rw [List.cons_append, accept_of_ok (classify_of_next hpart hread), haccept]
    rfl
  | @aside here behind f frames hpart h ih =>
    obtain ⟨hf, hframes⟩ := List.forall_mem_cons.1 hwell
    obtain ⟨received, -, hout, hclassify⟩ := classify_of_aside hf hpart
    have hstarted := started?_append_of_other (.inr hpart) before
    have hremembers' : Remembers here (before ++ [f]) := fun kind hkind =>
      hstarted.trans (hremembers kind hkind)
    obtain ⟨later, hlater, haccept⟩ := ih hframes hremembers'
    refine ⟨received :: later, .cons (hout _) hlater, fun more => ?_⟩
    rw [List.cons_append, accept_of_ok (hclassify _), haccept]
    rfl

/-! ### The order of messages -/

/-- The frame that may not stand where it does is the one with which the order is lost. -/
theorem Breaks.not_startsMessages {before : List ServerFrame} {bad : ServerFrame}
    {between : Option MessageKind} {e : Error} (h : Breaks bad between e)
    (hbefore : Follows none before between) : ¬ StartsMessages (before ++ [bad]) := by
  rw [startsMessages_iff]
  rintro ⟨behind, hbehind⟩
  obtain ⟨other, hother, hlast⟩ := follows_append_iff.1 hbehind
  rw [hother.unique hbefore] at hlast
  exact h.not_follows hlast

theorem Breaks.error_eq {f : ServerFrame} {here : Option MessageKind} {e : Error}
    (h : Breaks f here e) :
    e = if f.part = .next then .nothingToContinue else .expectedContinuation := by
  cases h with
  | first hpart => rw [if_neg (by simp [hpart])]
  | next hpart => rw [if_pos hpart]

theorem remembers_new : Remembers none [] :=
  fun _ hkind => nomatch hkind

theorem accept_of_startsMessages {frames : List ServerFrame} (h : StartsMessages frames)
    (hwell : ∀ f ∈ frames, f.WellFormed) :
    ∃ received reader, accept {} frames = { frames := received, reader, rest := [] } ∧
      ComeOut [] frames received := by
  obtain ⟨behind, hfollows⟩ := startsMessages_iff.1 h
  obtain ⟨received, hout, haccept⟩ := accept_of_follows hfollows hwell remembers_new
  have hall := haccept []
  rw [List.append_nil] at hall
  refine ⟨received, { fragment := behind }, hall.trans ?_, hout⟩
  simp [accept, Drained.behind]

theorem accept_of_not_startsMessages {frames : List ServerFrame} (h : ¬ StartsMessages frames)
    (hwell : ∀ f ∈ frames, f.WellFormed) :
    ∃ before bad after received reader, frames = before ++ bad :: after ∧
      (StartsMessages before ∧ ¬ StartsMessages (before ++ [bad])) ∧
      accept {} frames =
        { frames := received
          failure := some (if bad.part = .next then .nothingToContinue else .expectedContinuation)
          reader
          rest := ServerFrame.wire after } ∧
      ComeOut [] before received := by
  obtain ⟨before, bad, after, between, e, rfl, hbefore, hbad⟩ :=
    (exists_breaks none frames).resolve_left fun hfollows => h (startsMessages_iff.2 hfollows)
  have hwellBefore : ∀ f ∈ before, f.WellFormed := fun f hf =>
    hwell f (List.mem_append_left _ hf)
  obtain ⟨received, hout, haccept⟩ := accept_of_follows hbefore hwellBefore remembers_new
  refine ⟨before, bad, after, received, { fragment := between }, rfl,
    ⟨startsMessages_iff.2 ⟨between, hbefore⟩, hbad.not_startsMessages hbefore⟩, ?_, hout⟩
  rw [haccept, accept_of_error (classify_of_breaks hbad), hbad.error_eq]
  simp [Drained.behind]

/-! ### What stands between the frames of a message -/

theorem isData_of_readData {r r' : FrameReader} {kind : MessageKind} {fin : Bool}
    {payload : Bytes} {received : Received}
    (h : r.readData kind fin payload = (r', .ok received)) : received.isData = true := by
  cases kind with
  | binary =>
    cases h
    rfl
  | text =>
    simp only [readData] at h
    split at h
    · cases h
      rfl
    · cases h
    · split at h
      · cases h
      · cases h
        rfl

theorem isData_of_classify {r r' : FrameReader} {f : ServerFrame} (hpart : f.part ≠ .aside)
    {received : Received} (h : r.classify f.head f.payload = (r', .ok received)) :
    received.isData = true := by
  cases hcase : f.part with
  | first kind =>
    rw [classify_eq_startMessage hcase, startMessage] at h
    split at h
    · cases h
    · exact isData_of_readData h
  | next =>
    rw [classify_eq_continueMessage hcase, continueMessage] at h
    split at h
    · cases h
    · exact isData_of_readData h
  | aside => exact absurd hcase hpart

/-- What belongs to no message makes no difference to what comes of the messages. -/
theorem accept_parts (r : FrameReader) {frames : List ServerFrame}
    (hwell : ∀ f ∈ frames, f.WellFormed) :
    (r.accept (parts frames)).frames = (r.accept frames).frames.filter Received.isData ∧
      (r.accept (parts frames)).failure = (r.accept frames).failure ∧
      (r.accept (parts frames)).reader = (r.accept frames).reader := by
  induction frames generalizing r with
  | nil => exact ⟨rfl, rfl, rfl⟩
  | cons f frames ih =>
    obtain ⟨hf, hframes⟩ := List.forall_mem_cons.1 hwell
    by_cases hpart : f.part = .aside
    · obtain ⟨received, hdata, -, hclassify⟩ := classify_of_aside hf hpart
      rw [parts_of_aside hpart, accept_of_ok (hclassify r)]
      obtain ⟨hread, hfailure, hreader⟩ := ih r hframes
      refine ⟨?_, hfailure, hreader⟩
      simp [Drained.behind, hread, hdata]
    · rw [parts_of_ne hpart]
      rcases hclassify : r.classify f.head f.payload with ⟨r', result⟩
      cases result with
      | error e =>
        rw [accept_of_error hclassify, accept_of_error hclassify]
        exact ⟨rfl, rfl, rfl⟩
      | ok received =>
        rw [accept_of_ok hclassify, accept_of_ok hclassify]
        obtain ⟨hread, hfailure, hreader⟩ := ih r' hframes
        refine ⟨?_, hfailure, hreader⟩
        simp [Drained.behind, hread, isData_of_classify hpart hclassify]

/-- **The grammar of messages.** A new reader is given frames each of which is well-formed. It takes
them all exactly if the data frames among them start a row of messages; then they come out one for
one, a Continuation frame as one of the message that was started last, and the others for what they
are. If not, the reader refuses the first frame with which the data frames do not start a row of
messages any more: those before it come out, and those behind it are left. The messages come out as
they would if control frames and frames whose opcode is reserved were deleted, and the reader stands
as it would then. -/
theorem drain_messages (frames : List ServerFrame) (hwell : ∀ f ∈ frames, f.WellFormed) :
    let drained := drain {} (ServerFrame.wire frames)
    (drained.failure = none ↔ StartsMessages frames) ∧
      (StartsMessages frames → ComeOut [] frames drained.frames ∧ drained.rest = []) ∧
      (¬ StartsMessages frames → ∃ before bad after, frames = before ++ bad :: after ∧
        (StartsMessages before ∧ ¬ StartsMessages (before ++ [bad])) ∧
        ComeOut [] before drained.frames ∧
        drained.failure = some (if bad.part = .next then .nothingToContinue
          else .expectedContinuation) ∧
        drained.rest = ServerFrame.wire after) ∧
      (drain {} (ServerFrame.wire (parts frames))).frames =
        drained.frames.filter Received.isData ∧
      (drain {} (ServerFrame.wire (parts frames))).failure = drained.failure ∧
      (drain {} (ServerFrame.wire (parts frames))).reader = drained.reader := by
  intro drained
  have hdrained : drained = accept {} frames := drain_wire rfl frames
  obtain ⟨hframes, hfailure, hreader⟩ := accept_parts {} hwell
  rw [drain_wire rfl, hframes, hfailure, hreader, hdrained]
  by_cases h : StartsMessages frames
  · obtain ⟨received, reader, haccept, hout⟩ := accept_of_startsMessages h hwell
    rw [haccept]
    exact ⟨iff_of_true rfl h, fun _ => ⟨hout, rfl⟩, fun hnot => absurd h hnot, rfl, rfl, rfl⟩
  · obtain ⟨before, bad, after, received, reader, hcut, hfirst, haccept, hout⟩ :=
      accept_of_not_startsMessages h hwell
    rw [haccept]
    exact ⟨iff_of_false (by simp) h, fun hstarts => absurd hstarts h,
      fun _ => ⟨before, bad, after, hcut, hfirst, hout, rfl, rfl⟩, rfl, rfl, rfl⟩

/-- A letter of a text, a Pong, a frame whose opcode is reserved, and the end of the text. -/
def textApart : List ServerFrame :=
  [letterFrame,
   { head := { fin := true, code := Opcode.pong.code }, form := .short, payload := [1, 2],
     code_lt := by decide, fits := by decide, control := by decide },
   { head := { fin := false, code := 11 }, form := .medium, payload := [0xFF],
     code_lt := by decide, fits := by decide, control := by decide },
   { closing with payload := [98], fits := by decide }]

/-- The text comes back, and what is between its fragments too. Its last fragment may not come a
second time. -/
theorem drain_textApart :
    ((drain {} (ServerFrame.wire textApart)).failure = none ∧
      ComeOut [] textApart (drain {} (ServerFrame.wire textApart)).frames ∧
      (drain {} (ServerFrame.wire (parts textApart))).frames =
        [.text "a" false, .text "b" true]) ∧
    (drain {} (ServerFrame.wire (textApart ++ textApart.drop 3))).failure =
      some .nothingToContinue := by
  have hwell : ∀ f ∈ textApart, f.WellFormed := by
    simp only [textApart, List.forall_mem_cons]
    exact ⟨⟨"a", rfl⟩, trivial, trivial, ⟨"b", rfl⟩, List.forall_mem_nil _⟩
  have hstarts : StartsMessages textApart :=
    startsMessages_iff.2 ⟨none, .first rfl (.aside rfl (.aside rfl (.next rfl (.nil none))))⟩
  obtain ⟨hfailure, hout, -, hparts, -⟩ := drain_messages textApart hwell
  refine ⟨⟨hfailure.2 hstarts, (hout hstarts).1, ?_⟩, ?_⟩
  · rw [hparts, drain_wire rfl]
    rfl
  · rw [drain_wire rfl]
    rfl

end FrameReader

end WebClient
