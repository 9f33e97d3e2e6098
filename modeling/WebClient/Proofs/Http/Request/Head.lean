import WebClient.Proofs.Http.Request.Framing

/-!
# The lines of a request

A recipient cuts the head of a request into lines at every end of a line, up to the first empty one,
so a text that holds an end of a line would put lines of its own into the head. Targets, names and
values are checked for this before they are written. The method is not, and whether it holds an end
of a line alone decides whether the lines are those that the request says (`headLines?_head_iff`).
Nor is there a check whether a name begins with a blank, which would make its line a continuation of
the one before. So the head is exact when the method is a word and no name begins with a blank, and
only then (`encode_exactHead_iff`).
-/

namespace WebClient

namespace Bytes

/-! ### The lines in front of an empty line -/

/-- The lines in front of the first empty one, and what follows that. -/
def headLines? (bs : Bytes) : Option (List Bytes × Bytes) :=
  match _h : splitLine? bs with
  | none => none
  | some ([], after) => some ([], after)
  | some (b :: line, after) =>
    (headLines? after).map fun (lines, content) => ((b :: line) :: lines, content)
termination_by bs.length
decreasing_by exact length_lt_of_splitLine? _h

theorem headLines?_crlf (content : Bytes) : headLines? (crlf ++ content) = some ([], content) := by
  have hsplit : splitLine? (crlf ++ content) = some ([], content) :=
    splitLine?_of_isLine .nil content
  rw [headLines?]
  split <;> simp_all

theorem headLines?_line {line : Bytes} (hline : IsLine line) (hne : line ≠ []) (after : Bytes) :
    headLines? (line ++ crlf ++ after) =
      (headLines? after).map fun (lines, content) => (line :: lines, content) := by
  have hsplit := splitLine?_of_isLine hline after
  rw [headLines?]
  split <;> simp_all

/-- Lines that are written one after the other are cut apart again. -/
theorem headLines?_lines {lines : List Bytes} (hlines : ∀ line ∈ lines, IsLine line ∧ line ≠ [])
    (content : Bytes) :
    headLines? (lines.flatMap (· ++ crlf) ++ (crlf ++ content)) = some (lines, content) := by
  induction lines with
  | nil => exact headLines?_crlf content
  | cons line lines ih =>
    obtain ⟨⟨hline, hne⟩, hrest⟩ := List.forall_mem_cons.1 hlines
    rw [List.flatMap_cons, List.append_assoc (line ++ crlf), headLines?_line hline hne, ih hrest]
    rfl

theorem isLine_ofString {s : String} (h : '\r' ∉ s.toList) : IsLine (ofString s) :=
  isLine_of_not_mem (Utf8.not_mem_ofString (c := '\r') (by decide) h)

theorem ofString_ne_nil {s : String} (h : s ≠ "") : ofString s ≠ [] := by
  intro hnil
  have hread := Utf8.decode?_ofString s
  have hempty := Utf8.decode?_ofString ""
  rw [hnil] at hread
  exact h (Option.some_inj.1 (hread.symm.trans hempty))

def ofLines (texts : List String) : Bytes :=
  texts.flatMap fun text => ofString text ++ crlf

theorem headLines?_ofLines {texts : List String}
    (h : ∀ text ∈ texts, IsLine (ofString text) ∧ text ≠ "") (content : Bytes) :
    headLines? (ofLines texts ++ (crlf ++ content)) = some (texts.map ofString, content) := by
  have hlines : ∀ line ∈ texts.map ofString, IsLine line ∧ line ≠ [] := by
    intro line hmem
    obtain ⟨text, htext, rfl⟩ := List.mem_map.1 hmem
    exact ⟨(h text htext).1, ofString_ne_nil (h text htext).2⟩
  rw [ofLines, ← headLines?_lines hlines, List.flatMap_map]

theorem isLine_of_headLines? {bs line content : Bytes} {lines : List Bytes}
    (h : headLines? bs = some (line :: lines, content)) : IsLine line := by
  rw [headLines?] at h
  split at h
  · nomatch h
  · simp at h
  · next hsplit =>
    obtain ⟨⟨later, content⟩, -, heq⟩ := Option.map_eq_some_iff.1 h
    obtain ⟨rfl, -⟩ := List.cons.inj (Prod.mk.inj heq).1
    exact isLine_of_splitLine? hsplit

end Bytes

namespace Text

/-- The text is not empty and has no blanks. -/
def IsWord (s : String) : Prop :=
  s ≠ "" ∧ ∀ c ∈ s.toList, isBlank c = false

theorem IsWord.not_mem {s : String} (h : IsWord s) : '\r' ∉ s.toList := by
  intro hmem
  have hblank := h.2 '\r' hmem
  revert hblank
  decide

/-- The line would be read as part of the one before. -/
def Continues (line : String) : Prop :=
  ∃ c ∈ line.toList.head?, c = ' ' ∨ c = '\t'

end Text

namespace Http.Request

open Text (IsWord Continues)

variable {request : Request} {chunking : Bool}

/-! ### What the lines say -/

def lineText (request : Request) : String :=
  request.method.word ++ " " ++ request.path ++ " HTTP/1.1"

def targetText (request : Request) : String :=
  " " ++ request.path ++ " HTTP/1.1"

def fieldText (field : Field) : String :=
  field.name ++ ": " ++ field.value

def headTexts (request : Request) (chunking : Bool) : List String :=
  request.lineText :: (request.fields chunking).map fieldText

/-- The bytes begin with a head of one request line and one line for each field, made of words and
of lines that stand on their own. -/
structure ExactHead (request : Request) (chunking : Bool) (bytes : Bytes) : Prop where
  headLines?_eq : Bytes.headLines? bytes =
    some ((request.headTexts chunking).map Bytes.ofString, request.content chunking)
  isWord_method : IsWord request.method.word
  isWord_path : IsWord request.path
  not_continues : ∀ field ∈ request.fields chunking, ¬ Continues (fieldText field)

theorem encode_eq_ok_iff {bytes : Bytes} : request.encode chunking = .ok bytes ↔
    request.headers.has "Host" = true ∧ isTarget request.path = true ∧
      (∀ field ∈ request.headers, isWritable field = true) ∧
      request.head chunking ++ request.content chunking = bytes := by
  unfold encode
  cases hhost : request.headers.has "Host" with
  | false => simp
  | true =>
    cases htarget : isTarget request.path with
    | false => simp
    | true =>
      cases hfind : request.headers.find? (!isWritable ·) with
      | some field =>
        have hbad := List.find?_some hfind
        have hmem := List.mem_of_find?_eq_some hfind
        simp only [Bool.not_true, Bool.false_eq_true, if_false, reduceCtorEq, false_iff]
        rintro ⟨-, -, hall, -⟩
        simp [hall field hmem] at hbad
      | none =>
        have hall : ∀ field ∈ request.headers, isWritable field = true := by
          simpa using List.find?_eq_none.1 hfind
        simp only [Bool.not_true, Bool.false_eq_true, if_false, Except.ok.injEq, true_and]
        exact ⟨fun h => ⟨hall, h⟩, fun h => h.2⟩

/-! ### Each text on its line -/

theorem isWord_iff_isTarget {path : String} : IsWord path ↔ isTarget path = true := by
  simp [IsWord, isTarget]

theorem isWritable_iff {field : Field} : isWritable field = true ↔
    field.name ≠ "" ∧ isOneLine field.name = true ∧ isOneLine field.value = true ∧
      ':' ∉ field.name.toList := by
  simp [isWritable, and_assoc]

theorem not_mem_of_isOneLine {s : String} (h : isOneLine s = true) : '\r' ∉ s.toList := by
  intro hmem
  have hall := List.all_eq_true.1 h '\r' hmem
  revert hall
  decide

theorem eq_of_mem_framingField {field : Field} (h : field ∈ request.framingField chunking) :
    field = ⟨"Transfer-Encoding", "chunked"⟩ ∨
      ∃ n, field = ⟨"Content-Length", String.ofList (Text.decimal n)⟩ := by
  unfold framingField at h
  split at h
  · nomatch h
  · split at h
    · nomatch h
    · exact .inl (List.mem_singleton.1 h)
  · split at h
    · nomatch h
    · exact .inr ⟨_, List.mem_singleton.1 h⟩

theorem isOneLine_decimal (n : Nat) : isOneLine (String.ofList (Text.decimal n)) = true := by
  have hspells := Text.spells_decimal n
  have hreturn : '\r' ∉ Text.decimal n := hspells.not_mem (by decide)
  have hfeed : '\n' ∉ Text.decimal n := hspells.not_mem (by decide)
  rw [isOneLine, String.toList_ofList, List.all_eq_true]
  intro c hc
  have hne : c ≠ '\r' ∧ c ≠ '\n' := ⟨fun heq => hreturn (heq ▸ hc), fun heq => hfeed (heq ▸ hc)⟩
  simpa using hne

/-- The fields that the writer adds pass its own checks, and their names begin with a letter. -/
theorem isWritable_of_mem_framingField {field : Field} (h : field ∈ request.framingField chunking) :
    isWritable field = true ∧ ¬ Continues field.name := by
  rcases eq_of_mem_framingField h with rfl | ⟨n, rfl⟩
  · exact ⟨by decide +kernel, by simp [Continues]⟩
  · have hname : isOneLine "Content-Length" = true := by decide +kernel
    have hcolon : ':' ∉ "Content-Length".toList := by decide +kernel
    exact ⟨isWritable_iff.2 ⟨by simp, hname, isOneLine_decimal n, hcolon⟩, by simp [Continues]⟩

theorem isWritable_of_mem_fields (h : ∀ field ∈ request.headers, isWritable field = true)
    (chunking : Bool) : ∀ field ∈ request.fields chunking, isWritable field = true := by
  intro field hmem
  rcases List.mem_append.1 hmem with hmem | hmem
  · exact h field hmem
  · exact (isWritable_of_mem_framingField hmem).1

theorem not_mem_fieldText {field : Field} (h : isWritable field = true) :
    '\r' ∉ (fieldText field).toList := by
  obtain ⟨-, hname, hvalue, -⟩ := isWritable_iff.1 h
  simp [fieldText, not_mem_of_isOneLine hname, not_mem_of_isOneLine hvalue]

theorem fieldText_ne_empty (field : Field) : fieldText field ≠ "" := by
  intro hempty
  simpa [fieldText] using congrArg String.toList hempty

theorem continues_fieldText {field : Field} (h : isWritable field = true) :
    Continues (fieldText field) ↔ Continues field.name := by
  obtain ⟨hne, -⟩ := isWritable_iff.1 h
  have hhead : (fieldText field).toList.head? = field.name.toList.head? := by
    cases hname : field.name.toList with
    | nil => exact absurd (String.toList_eq_nil_iff.1 hname) hne
    | cons c cs => simp [fieldText, hname]
  rw [Continues, Continues, hhead]

/-! ### The head -/

theorem lineText_eq (request : Request) :
    request.lineText = request.method.word ++ request.targetText := by
  simp [lineText, targetText, String.append_assoc]

theorem lineText_ne_empty (request : Request) : request.lineText ≠ "" := by
  intro hempty
  simpa [lineText] using congrArg String.toList hempty

/-- A target cannot end its line, so the request line is one line when the method is. -/
theorem isLine_lineText_iff (h : IsWord request.path) :
    Bytes.IsLine (Bytes.ofString request.lineText) ↔
      Bytes.IsLine (Bytes.ofString request.method.word) := by
  have hblank : Bytes.ofString " " = [32] := rfl
  have htarget : Bytes.ofString request.targetText =
      32 :: Bytes.ofString (request.path ++ " HTTP/1.1") := by
    simp [targetText, hblank, String.append_assoc]
  have hline : Bytes.IsLine (Bytes.ofString request.targetText) :=
    Bytes.isLine_ofString (by simp [targetText, h.not_mem])
  rw [lineText_eq, Bytes.ofString_append]
  -- A return at the end of the method has a blank behind it, so no end of a line spans the two.
  constructor
  · intro hwhole
    exact List.IsChain.left_of_append hwhole
  · intro hmethod
    exact hmethod.append hline (.inr (by simp [htarget]))

theorem ofLines_fields (fields : Headers) :
    Bytes.ofLines (fields.map fieldText) = fields.flatMap fieldLine := by
  have hline : fieldLine = fun field => Bytes.ofString (fieldText field) ++ Bytes.crlf :=
    funext fieldLine_eq
  rw [Bytes.ofLines, List.flatMap_map, hline]

theorem requestLine_eq (request : Request) :
    request.requestLine = Bytes.ofString request.lineText ++ Bytes.crlf := by
  simp [requestLine, lineText]

theorem head_eq_ofLines (request : Request) (chunking : Bool) :
    request.head chunking = Bytes.ofLines (request.headTexts chunking) ++ Bytes.crlf := by
  have hcons : Bytes.ofLines (request.headTexts chunking) =
      Bytes.ofString request.lineText ++ Bytes.crlf ++
        Bytes.ofLines ((request.fields chunking).map fieldText) := rfl
  rw [head_eq, hcons, ofLines_fields, requestLine_eq]

/-- The lines are those that the request says unless its method holds the end of one. -/
theorem headLines?_head_iff (hpath : IsWord request.path)
    (hfields : ∀ field ∈ request.headers, isWritable field = true) (chunking : Bool)
    (content : Bytes) :
    Bytes.headLines? (request.head chunking ++ content) =
        some ((request.headTexts chunking).map Bytes.ofString, content) ↔
      Bytes.IsLine (Bytes.ofString request.method.word) := by
  rw [← isLine_lineText_iff hpath]
  constructor
  · intro hlines
    exact Bytes.isLine_of_headLines? hlines
  · intro hline
    have htexts : ∀ text ∈ request.headTexts chunking,
        Bytes.IsLine (Bytes.ofString text) ∧ text ≠ "" := by
      intro text hmem
      rcases List.mem_cons.1 hmem with rfl | hmem
      · exact ⟨hline, request.lineText_ne_empty⟩
      · obtain ⟨field, hfield, rfl⟩ := List.mem_map.1 hmem
        have hwritable := isWritable_of_mem_fields hfields chunking field hfield
        exact ⟨Bytes.isLine_ofString (not_mem_fieldText hwritable), fieldText_ne_empty field⟩
    rw [head_eq_ofLines, List.append_assoc]
    exact Bytes.headLines?_ofLines htexts content

theorem length_framingField_le (request : Request) (chunking : Bool) :
    (request.framingField chunking).length ≤ 1 := by
  unfold framingField
  repeat' split
  all_goals simp

/-- No line of a field continues the one before exactly when no name of the caller's begins with a
blank. -/
theorem not_continues_fields_iff (h : ∀ field ∈ request.headers, isWritable field = true)
    (chunking : Bool) :
    (∀ field ∈ request.fields chunking, ¬ Continues (fieldText field)) ↔
      ∀ field ∈ request.headers, ¬ Continues field.name := by
  have hwritable := isWritable_of_mem_fields h chunking
  constructor
  · intro hall field hmem
    have hfield : field ∈ request.fields chunking := List.mem_append_left _ hmem
    rw [← continues_fieldText (hwritable field hfield)]
    exact hall field hfield
  · intro hall field hfield
    rw [continues_fieldText (hwritable field hfield)]
    rcases List.mem_append.1 hfield with hmem | hmem
    · exact hall field hmem
    · exact (isWritable_of_mem_framingField hmem).2

/-- **What is in the head of a written request.** Its target is a word and at most one field is
added. The lines of the head are those of the request unless the method holds the end of a line, and
the head is exact, each line made of what it should be made of, exactly when the method is a word
and no name begins with a blank. -/
theorem encode_exactHead_iff {bytes : Bytes} (h : request.encode chunking = .ok bytes) :
    IsWord request.path ∧ (request.framingField chunking).length ≤ 1 ∧
      (Bytes.headLines? bytes =
          some ((request.headTexts chunking).map Bytes.ofString, request.content chunking) ↔
        Bytes.IsLine (Bytes.ofString request.method.word)) ∧
      (request.ExactHead chunking bytes ↔
        IsWord request.method.word ∧ ∀ field ∈ request.headers, ¬ Continues field.name) := by
  obtain ⟨-, htarget, hwritable, rfl⟩ := encode_eq_ok_iff.1 h
  have hpath := isWord_iff_isTarget.2 htarget
  have hlines := headLines?_head_iff hpath hwritable chunking (request.content chunking)
  have hfields := not_continues_fields_iff hwritable chunking
  refine ⟨hpath, length_framingField_le request chunking, hlines, ?_⟩
  constructor
  · intro hexact
    exact ⟨hexact.isWord_method, hfields.1 hexact.not_continues⟩
  · rintro ⟨hmethod, hnames⟩
    have hline := Bytes.isLine_ofString hmethod.not_mem
    exact ⟨hlines.2 hline, hmethod, hpath, hfields.2 hnames⟩

theorem exactHead_greeting :
    (greeting [⟨"X-Name", " b"⟩] (some hello)).encode true =
        .ok (Bytes.ofString "POST / HTTP/1.1\r\nHost: h\r\nX-Name:  b\r\n" ++
          Bytes.ofString "Transfer-Encoding: chunked\r\n\r\n5\r\nhello\r\n0\r\n\r\n") ∧
      (greeting [⟨"X-Name", " b"⟩] (some hello)).ExactHead true
        (Bytes.ofString "POST / HTTP/1.1\r\nHost: h\r\nX-Name:  b\r\n" ++
          Bytes.ofString "Transfer-Encoding: chunked\r\n\r\n5\r\nhello\r\n0\r\n\r\n") := by
  generalize hbytes : Bytes.ofString "POST / HTTP/1.1\r\nHost: h\r\nX-Name:  b\r\n" ++
    Bytes.ofString "Transfer-Encoding: chunked\r\n\r\n5\r\nhello\r\n0\r\n\r\n" = bytes
  have hencode : (greeting [⟨"X-Name", " b"⟩] (some hello)).encode true = .ok bytes := by
    rw [encode_greeting (by decide +kernel), ← hbytes]
    decide +kernel
  have hmethod : IsWord (greeting [⟨"X-Name", " b"⟩] (some hello)).method.word :=
    isWord_iff_isTarget.2 (by decide +kernel)
  have hnames : ∀ field ∈ (greeting [⟨"X-Name", " b"⟩] (some hello)).headers,
      ¬ Continues field.name := by
    simp [greeting, Continues]
  obtain ⟨-, -, -, hiff⟩ := encode_exactHead_iff hencode
  exact ⟨hencode, hiff.2 ⟨hmethod, hnames⟩⟩

def requestOf (method : String) (headers : Headers) : Request where
  method := .other method
  path := "/"
  headers := ⟨"Host", "h"⟩ :: headers

theorem encode_requestOf (method : String) {headers : Headers}
    (h : headers.all isWritable = true) :
    (requestOf method headers).encode false = .ok ((requestOf method headers).head false) := by
  have hpath : isTarget "/" = true := by decide +kernel
  have hfield : isWritable ⟨"Host", "h"⟩ = true := by decide +kernel
  refine encode_eq_ok_iff.2 ⟨by simp [requestOf, Headers.has], hpath, ?_, List.append_nil _⟩
  intro field hmem
  rcases List.mem_cons.1 hmem with rfl | hmem
  · exact hfield
  · exact List.all_eq_true.1 h field hmem

/-- The request is written, and its head is not what it says. -/
def Disguised (request : Request) : Prop :=
  ∃ bytes, request.encode false = .ok bytes ∧ ¬ request.ExactHead false bytes

/-- Each way in which a head can be other than what its request says: a method with ends of lines,
which puts a field of its own into the head, a method with a blank, no method, and a name that
begins with a blank. -/
theorem disguised_requests :
    (∃ bytes, (requestOf "GET / HTTP/1.1\r\nX-Own: yes\r\nX:" []).encode false = .ok bytes ∧
      Bytes.headLines? bytes = some
        (["GET / HTTP/1.1", "X-Own: yes", "X: / HTTP/1.1", "Host: h"].map Bytes.ofString, [])) ∧
    (requestOf "GET / HTTP/1.1\r\nX-Own: yes\r\nX:" []).Disguised ∧
    (requestOf "A B" []).Disguised ∧
    (requestOf "" []).Disguised ∧
    (requestOf "GET" [⟨" X", "y"⟩]).Disguised := by
  refine ⟨⟨_, encode_requestOf _ rfl, ?_⟩, ⟨_, encode_requestOf _ rfl, ?_⟩,
    ⟨_, encode_requestOf _ rfl, ?_⟩, ⟨_, encode_requestOf _ rfl, ?_⟩,
    ⟨_, encode_requestOf _ (by decide +kernel), ?_⟩⟩
  · have hlines : (requestOf "GET / HTTP/1.1\r\nX-Own: yes\r\nX:" []).head false =
        Bytes.ofLines ["GET / HTTP/1.1", "X-Own: yes", "X: / HTTP/1.1", "Host: h"] ++
          (Bytes.crlf ++ []) := by decide +kernel
    rw [hlines]
    exact Bytes.headLines?_ofLines (fun text hmem => by
      simp only [List.mem_cons, List.not_mem_nil, or_false] at hmem
      rcases hmem with rfl | rfl | rfl | rfl
      all_goals exact ⟨Bytes.isLine_ofString (by decide +kernel), by decide +kernel⟩) []
  · intro h
    exact absurd h.isWord_method.not_mem (by decide +kernel)
  · intro h
    exact absurd (h.isWord_method.2 ' ' (by decide +kernel)) (by decide)
  · intro h
    exact h.isWord_method.1 rfl
  · intro h
    refine h.not_continues ⟨" X", "y"⟩ (by decide +kernel) ?_
    simp [Continues, fieldText]

end Http.Request

end WebClient
