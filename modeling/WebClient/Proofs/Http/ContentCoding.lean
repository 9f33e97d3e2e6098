import Mathlib.Data.List.Basic
import WebClient.Http.ContentCoding
import WebClient.Proofs.Http.Headers

/-!
# Decoded bodies

Decoding a response touches its body, the fields that describe the body, and nothing else
(`decode_keeps_rest`). There are three ways in which a response is decoded (`Decoded`), and the
first Content-Encoding field says which: it stays as it is, or it loses the label that says nothing,
or its body is inflated. What inflates bodies is left open.
-/

namespace WebClient.Http

open ContentCoding (ofValue? decode withInflated)

/-! ### The names of the codings -/

def ContentCoding.names : ContentCoding → List String
  | gzip => ["gzip", "x-gzip"]
  | deflate => ["deflate"]
  | identity => ["identity"]

namespace ContentCoding

theorem ofValue?_eq_some_iff {value : String} {coding : ContentCoding} :
    ofValue? value = some coding ↔ Text.lower (Text.trim value) ∈ coding.names := by
  unfold ofValue?
  generalize Text.lower (Text.trim value) = name
  split <;> cases coding <;> simp_all [names]

end ContentCoding

/-! ### What decoding does -/

/-- What the reader of a coding takes a body for. -/
def Inflaters.Reads (inflaters : Inflaters) (coding : ContentCoding) (body content : Bytes) :
    Prop :=
  match coding with
  | .gzip => inflaters.gzip body = .ok content
  | .deflate => inflaters.zlib body = .ok content ∨ inflaters.deflate body = .ok content
  | .identity => content = body

/-- The coding that is undone, if there is one: the first field with the name says so. -/
def Response.coding? (response : Response) : Option ContentCoding :=
  (response.headers.get? "Content-Encoding").bind ofValue?

/-- The three ways in which a response is decoded. -/
inductive Decoded (inflaters : Inflaters) (before : Response) : Response → Prop
  | untouched (hcoding : before.coding? = none) : Decoded inflaters before before
  | unlabelled (hcoding : before.coding? = some .identity) :
    Decoded inflaters before
      { before with headers := before.headers.erase "Content-Encoding" }
  | inflated {coding : ContentCoding} {content : Bytes} (hcoding : before.coding? = some coding)
      (hcompressed : coding ≠ .identity) (hreads : inflaters.Reads coding before.body content)
      (hsize : content.length ≤ ResponseReader.maxBodyBytes) :
    Decoded inflaters before (withInflated before content)

namespace ContentCoding

variable {inflaters : Inflaters} {before after : Response} {body content : Bytes}

theorem eq_ok_of_bounded {inflated : Except InflateError Bytes}
    (h : bounded inflated = .ok content) :
    inflated = .ok content ∧ content.length ≤ ResponseReader.maxBodyBytes := by
  unfold bounded at h
  split at h
  · nomatch h
  · split at h
    · nomatch h
    · next hsmall =>
      obtain rfl := Except.ok.inj h
      exact ⟨rfl, Nat.not_lt.1 hsmall⟩

theorem reads_of_inflateEither (h : inflateEither inflaters body = .ok content) :
    inflaters.Reads .deflate body content ∧ content.length ≤ ResponseReader.maxBodyBytes := by
  unfold inflateEither at h
  split at h
  · next found hzlib =>
    obtain rfl := Except.ok.inj h
    obtain ⟨hread, hsize⟩ := eq_ok_of_bounded hzlib
    exact ⟨.inl hread, hsize⟩
  · obtain ⟨hread, hsize⟩ := eq_ok_of_bounded h
    exact ⟨.inr hread, hsize⟩

theorem decoded_of_inflated {coding : ContentCoding} {inflated : Except ContentError Bytes}
    (hcoding : before.coding? = some coding) (hcompressed : coding ≠ .identity)
    (hreads : ∀ content, inflated = .ok content →
      inflaters.Reads coding before.body content ∧ content.length ≤ ResponseReader.maxBodyBytes)
    (h : inflated.map (withInflated before) = .ok after) : Decoded inflaters before after := by
  cases inflated with
  | error e => nomatch h
  | ok content =>
    obtain rfl := Except.ok.inj h
    obtain ⟨hread, hsize⟩ := hreads content rfl
    exact .inflated hcoding hcompressed hread hsize

/-- A response that is decoded at all is decoded in one of the three ways. -/
theorem decoded_of_decode (h : decode inflaters before = .ok after) :
    Decoded inflaters before after := by
  unfold decode at h
  split at h
  · next hcoding =>
    obtain rfl := Except.ok.inj h
    exact .untouched hcoding
  · next hcoding =>
    obtain rfl := Except.ok.inj h
    exact .unlabelled hcoding
  · next hcoding =>
    exact decoded_of_inflated hcoding (by simp) (fun _ => eq_ok_of_bounded) h
  · next hcoding =>
    exact decoded_of_inflated hcoding (by simp) (fun _ => reads_of_inflateEither) h

theorem decode_of_gzip (hcoding : before.coding? = some .gzip)
    (hread : inflaters.gzip before.body = .ok content)
    (hsize : content.length ≤ ResponseReader.maxBodyBytes) :
    decode inflaters before = .ok (withInflated before content) := by
  have hcoding : (before.headers.get? "Content-Encoding").bind ofValue? = some .gzip := hcoding
  simp only [decode, hcoding, hread, bounded, if_neg (Nat.not_lt.2 hsize), Except.map]

theorem decode_of_zlib (hcoding : before.coding? = some .deflate)
    (hread : inflaters.zlib before.body = .ok content)
    (hsize : content.length ≤ ResponseReader.maxBodyBytes) :
    decode inflaters before = .ok (withInflated before content) := by
  have hcoding : (before.headers.get? "Content-Encoding").bind ofValue? = some .deflate := hcoding
  simp only [decode, hcoding, inflateEither, hread, bounded, if_neg (Nat.not_lt.2 hsize),
    Except.map]

theorem decode_of_identity (hcoding : before.coding? = some .identity) (inflaters : Inflaters) :
    decode inflaters before =
      .ok { before with headers := before.headers.erase "Content-Encoding" } := by
  have hcoding : (before.headers.get? "Content-Encoding").bind ofValue? = some .identity := hcoding
  simp only [decode, hcoding]

theorem decode_of_none (h : before.coding? = none) (inflaters : Inflaters) :
    decode inflaters before = .ok before := by
  have hcoding : (before.headers.get? "Content-Encoding").bind ofValue? = none := h
  simp only [decode, hcoding]

theorem coding?_of_not_has (h : before.headers.has "Content-Encoding" = false) :
    before.coding? = none := by
  rw [Response.coding?, Headers.get?_eq_none h]
  rfl

/-! ### What decoding leaves alone -/

theorem not_isNamed_encoding (value : String) :
    (Field.mk "Content-Length" value).isNamed "Content-Encoding" = false := by
  have : Text.eqIgnoringCase "Content-Length" "Content-Encoding" = false := by decide +kernel
  exact this

theorem headers_withInflated (response : Response) (content : Bytes) :
    (withInflated response content).headers =
      response.headers.without ["Content-Encoding", "Content-Length"] ++
        [⟨"Content-Length", String.ofList (Text.decimal content.length)⟩] := by
  simp only [withInflated, Headers.erase_eq_without, Headers.without_without]
  rfl

theorem has_withInflated (response : Response) (content : Bytes) :
    (withInflated response content).headers.has "Content-Encoding" = false := by
  rw [headers_withInflated, Headers.has_append, Headers.has_without (by simp),
    Headers.has_singleton, not_isNamed_encoding]
  rfl

theorem values_withInflated (response : Response) (content : Bytes) :
    (withInflated response content).headers.values "Content-Length" =
      [String.ofList (Text.decimal content.length)] := by
  rw [headers_withInflated, Headers.values_append, Headers.values_singleton,
    Headers.values_eq_nil (Headers.has_without (by simp) _), List.nil_append]

theorem without_withInflated (response : Response) (content : Bytes) :
    (withInflated response content).headers.without ["Content-Encoding", "Content-Length"] =
      response.headers.without ["Content-Encoding", "Content-Length"] := by
  have hlength : Headers.without [⟨"Content-Length", String.ofList (Text.decimal content.length)⟩]
      ["Content-Encoding", "Content-Length"] = [] := by
    simp [Headers.without]
  rw [headers_withInflated, Headers.without_append, hlength, List.append_nil,
    Headers.without_without]
  exact Headers.without_congr (fun name => by rw [List.mem_append, or_self]) _

/-- **Decoding touches the body and the fields that describe it**, and nothing else. A body that is
inflated is the content that the reader of the coding gives, no longer than any other body, and its
length is stated once and no coding of it; any other body stays as it is. What has been decoded is
not decoded again. -/
theorem decode_keeps_rest (h : decode inflaters before = .ok after) :
    after.status = before.status ∧ after.reason = before.reason ∧
      after.headers.without ["Content-Encoding", "Content-Length"] =
        before.headers.without ["Content-Encoding", "Content-Length"] ∧
      (∀ coding, before.coding? = some coding → coding ≠ .identity →
        inflaters.Reads coding before.body after.body ∧
          after.body.length ≤ ResponseReader.maxBodyBytes ∧
          after.headers.values "Content-Length" =
            [String.ofList (Text.decimal after.body.length)] ∧
          after.headers.has "Content-Encoding" = false) ∧
      (before.coding? = none ∨ before.coding? = some .identity →
        after.body = before.body ∧
          after.headers.values "Content-Length" = before.headers.values "Content-Length") ∧
      ∀ others : Inflaters, decode others after = .ok after := by
  cases decoded_of_decode h with
  | untouched hcoding =>
    refine ⟨rfl, rfl, rfl, fun coding hsome => ?_, fun _ => ⟨rfl, rfl⟩, decode_of_none hcoding⟩
    nomatch hcoding.symm.trans hsome
  | unlabelled hcoding =>
    have hnone := before.headers.has_erase "Content-Encoding"
    refine ⟨rfl, rfl, ?_, fun coding hsome hcompressed => ?_, fun _ => ⟨rfl, ?_⟩,
      decode_of_none (coding?_of_not_has hnone)⟩
    · rw [Headers.erase_eq_without, Headers.without_without]
      exact Headers.without_congr (by simp) _
    · exact absurd (Option.some.inj (hsome.symm.trans hcoding)) hcompressed
    · exact Headers.values_erase (by decide +kernel) _
  | inflated hcoding hcompressed hreads hsize =>
    refine ⟨rfl, rfl, without_withInflated before _, fun coding hsome _ => ?_, fun hkept => ?_,
      decode_of_none (coding?_of_not_has (has_withInflated before _))⟩
    · obtain rfl := Option.some.inj (hcoding.symm.trans hsome)
      exact ⟨hreads, hsize, values_withInflated before _, has_withInflated before _⟩
    · rcases hkept with hnone | hidentity
      · nomatch hcoding.symm.trans hnone
      · exact absurd (Option.some.inj (hcoding.symm.trans hidentity)) hcompressed

/-- A compressed response, with the length of what was sent stated twice. -/
def compressedGreeting : Response where
  status := 200
  reason := some "OK"
  headers :=
    [⟨"Content-Length", "28"⟩, ⟨"Server", "x"⟩, ⟨"Content-Encoding", "X-GZip"⟩,
      ⟨"Content-Length", "28"⟩, ⟨"server", "y"⟩]
  body := [0x1f, 0x8b, 0x08, 0x00, 0x00, 0x00, 0x00, 0x00, 0x00, 0xff, 0xcb, 0x48, 0xcd, 0xc9, 0xc9,
      0x57, 0xc8, 0x40, 0x90, 0x00, 0x80, 0x88, 0xf9, 0xe5, 0x11, 0x00, 0x00, 0x00]

def plainGreeting : Response where
  status := 200
  reason := some "OK"
  headers := [⟨"Server", "x"⟩, ⟨"server", "y"⟩, ⟨"Content-Length", "17"⟩]
  body := Bytes.ofString "hello hello hello"

theorem decode_keeps_rest_greeting :
    decode .standard compressedGreeting = .ok plainGreeting ∧
      plainGreeting.headers.without ["Content-Encoding", "Content-Length"] =
        compressedGreeting.headers.without ["Content-Encoding", "Content-Length"] ∧
      plainGreeting.headers.values "Content-Length" = ["17"] ∧
      ∀ others : Inflaters, decode others plainGreeting = .ok plainGreeting := by
  have hcoding : compressedGreeting.coding? = some .gzip := by decide +kernel
  have hread : Inflaters.standard.gzip compressedGreeting.body = .ok plainGreeting.body := by
    decide +kernel
  have h : decode .standard compressedGreeting = .ok plainGreeting := by
    rw [decode_of_gzip hcoding hread (by decide)]
    decide +kernel
  obtain ⟨-, -, hothers, hinflated, -, hagain⟩ := decode_keeps_rest h
  obtain ⟨-, -, hlength, -⟩ := hinflated .gzip hcoding (by decide)
  have hdigits : String.ofList (Text.decimal plainGreeting.body.length) = "17" := by decide +kernel
  rw [hdigits] at hlength
  exact ⟨h, hothers, hlength, hagain⟩

end ContentCoding

end WebClient.Http
