import WebClient.Proofs.Exchange.Carried
import WebClient.Proofs.Exchange.Reading
import WebClient.Proofs.Exchange.Secure

/-!
# Exchanges that bring a head only

A response to a HEAD request is a head with nothing behind it, whatever its fields say of a body.
The stages that read and decode a response see only the response, so an exchange brings it to the
redirect stage when the fields would have brought it there for any other method
(`Channel.action_of_headAlone`): they announce no body, and no coding of one that is undone.
Elsewhere the exchange fails, at the end of the stream or when the empty body is inflated.
-/

namespace WebClient

namespace Http.ContentCoding

/-- An empty body is what it is under no coding or the identity, and nothing that is compressed. -/
theorem decode_of_empty {response : Response} (h : response.body = []) :
    let coding := (response.headers.get? "Content-Encoding").bind ofValue?
    decode .standard response =
      if coding = some .gzip ∨ coding = some .deflate then .error (.inflate .truncated)
      else .ok { response with
        headers := if coding = some .identity then response.headers.erase "Content-Encoding"
          else response.headers } := by
  have hgzip : Inflaters.standard.gzip [] = .error .truncated := rfl
  have hzlib : Inflaters.standard.zlib [] = .error .truncated := rfl
  have hdeflate : Inflaters.standard.deflate [] = .error .truncated := rfl
  unfold decode
  rcases (response.headers.get? "Content-Encoding").bind ofValue? with _ | _ | _ | _
  · rfl
  · simp [h, hgzip, bounded, Except.map]
  · simp [h, inflateEither, hzlib, hdeflate, bounded, Except.map]
  · rfl

end Http.ContentCoding

namespace Exchange

open Http

namespace Channel

/-! ### Short streams -/

/-- **How a short stream is cut makes no difference** to the response that is read from it, if it is
no interim one. -/
theorem readResponse_of_fitsIn {r : ResponseReader} {buffer : Bytes} {pieces : List Bytes}
    (hfits : r.FitsIn ResponseReader.maxHeadBytes (buffer ++ pieces.flatten))
    (hfinal : ∀ response, (r.decode (buffer ++ pieces.flatten)).result = .ok (some response) →
      response.isInterim = false) (readFailure : Option StreamError) :
    (readResponse r buffer readFailure pieces).2 =
      finishReading (r.decode (buffer ++ pieces.flatten)) readFailure := by
  have hunbroken := ResponseReader.unbroken_decodeFinal_of_fitsIn hfits
  rw [← ResponseReader.decodeFinal_of_final hfinal]
  exact readResponse_of_unbroken hunbroken.behind readFailure

/-! ### One exchange -/

theorem method_prepare (channel : Channel) (request : Request) :
    (channel.prepare request).method = request.method := by
  unfold prepare ContentCoding.prepare Request.setHeader
  dsimp only
  repeat' split
  all_goals rfl

theorem method_of_follow {config : Config} {endpoint : Endpoint} {request : Request}
    {response : Response} {hops : UInt32} {hop : Hop} (hmethod : request.method = .head)
    (h : config.onResponse endpoint request response hops = .ok (.follow hop)) :
    hop.request.method = .head := by
  have hkept : turnsIntoGet response.status .head = false := by
    rw [← Bool.not_eq_true, turnsIntoGet_iff]
    simp
  obtain ⟨-, location, target, bound, -, -, -, rfl⟩ := Config.onResponse_eq_follow h
  simp only [redirected_eq_carried, carried, hmethod, hkept, Bool.false_eq_true, if_false]

variable {network : Network} {number : Nat} {endpoint : Endpoint} {config : Config}
  {channel : Channel} {request : Request} {sent : Bytes} {pieces : List Bytes} {t : ResponseText}

theorem action_of_connect (hconnect : connect network number endpoint config = .ok channel)
    (request : Request) (hops : UInt32) :
    (channel.exchange request hops).action = (channel.answer request).bind fun response =>
      config.onResponse endpoint (channel.prepare request) response hops := by
  rw [action_exchange (redirect?_of_connect hconnect), endpoint_of_connect hconnect]

/-- What an exchange brings is what all of the stream comes to, when it is short. -/
theorem answer_of_reply (hconnect : connect network number endpoint config = .ok channel)
    (hwrite : channel.write (channel.prepare request) = .ok sent)
    (hreply : channel.line.reply sent = { pieces })
    (hshort : pieces.flatten.length ≤ ResponseReader.maxHeadBytes)
    (hfinal : ∀ response, (ResponseReader.decode {} pieces.flatten).result = .ok (some response) →
      response.isInterim = false) :
    channel.answer request =
      (finishReading (ResponseReader.decode {} pieces.flatten) none).bind fun response =>
        (ContentCoding.decode .standard response).mapError .content := by
  have hpipeline := pipeline_of_connect hconnect
  have hfits : ({} : ResponseReader).FitsIn ResponseReader.maxHeadBytes ([] ++ pieces.flatten) := by
    rw [ResponseReader.FitsIn, List.nil_append, Nat.zero_add]
    exact hshort
  have hread := readResponse_of_fitsIn hfits hfinal none
  rw [List.nil_append] at hread
  have hcontent : channel.decodeContent = fun response =>
      (ContentCoding.decode .standard response).mapError .content := by
    funext response
    simp [decodeContent, hpipeline]
  simp only [answer, hwrite, hreply, hpipeline, Pipeline.decoder?_ofConfig, hread, hcontent]

theorem answer_of_headAlone (hconnect : connect network number endpoint config = .ok channel)
    (hwrite : channel.write (channel.prepare request) = .ok sent)
    (hreply : channel.line.reply sent = { pieces }) (hpieces : pieces.flatten = t.bytes)
    (h : t.WellFormedHead) (hform : t.body = .bodiless) (hfinal : 200 ≤ t.status) :
    (t.EndsAtHead → channel.answer request =
      (ContentCoding.decode .standard t.response).mapError .content) ∧
    (¬ t.EndsAtHead → ∃ e ∈ [ReadError.closedEarly, .invalidLength, .bodyTooLarge],
      channel.answer request = .error (.read e)) := by
  have hshort : pieces.flatten.length ≤ ResponseReader.maxHeadBytes := by
    rw [hpieces, ResponseText.bytes, hform, BodyText.bytes, List.append_nil]
    exact h.head_length
  obtain ⟨hends, hfails⟩ := ResponseReader.decodeEnd_headAlone h hform hfinal
  rw [← hpieces] at hends hfails
  have hanswer := answer_of_reply hconnect hwrite hreply hshort fun response hresult => by
    -- What is read before the end of the stream is what is read at its end.
    have hend : (ResponseReader.decodeEnd {} pieces.flatten).result = .ok (some response) := by
      simp only [ResponseReader.decodeEnd, hresult]
    by_cases hthere : t.EndsAtHead
    · obtain rfl := Option.some.inj (Except.ok.inj ((hends hthere).symm.trans hend))
      have hlarge : ¬ t.status < 200 := Nat.not_lt.2 hfinal
      simp [Response.isInterim, ResponseText.response, hlarge]
    · obtain ⟨e, -, hfailed⟩ := hfails hthere
      cases hfailed.symm.trans hend
  refine ⟨fun hthere => ?_, fun hnot => ?_⟩
  · have hread : finishReading _ none = (Except.ok t.response).mapError .read :=
      finishReading_decode (hends hthere)
    rw [hanswer, hread]
    rfl
  · obtain ⟨e, he, hfailed⟩ := hfails hnot
    have hread : finishReading _ none = (Except.error e).mapError .read :=
      finishReading_decode hfailed
    refine ⟨e, he, ?_⟩
    rw [hanswer, hread]
    rfl

/-- **What becomes of a HEAD request** that is answered with a head and the end of the stream. The
redirect stage is given the response, without a body, exactly when the head announces no body and no
coding of one that is undone; in the other cases the exchange fails. Where the redirect stage leads
on, a head is asked for again. -/
theorem action_of_headAlone (hconnect : connect network number endpoint config = .ok channel)
    (hmethod : request.method = .head)
    (hwrite : channel.write (channel.prepare request) = .ok sent)
    (hreply : channel.line.reply sent = { pieces }) (hpieces : pieces.flatten = t.bytes)
    (h : t.WellFormedHead) (hform : t.body = .bodiless) (hfinal : 200 ≤ t.status)
    (hops : UInt32) :
    let action := (channel.exchange request hops).action
    let coding := (t.fields.get? "Content-Encoding").bind ContentCoding.ofValue?
    let handed : Response :=
      { status := t.status
        reason := t.response.reason
        headers := if coding = some .identity then t.fields.erase "Content-Encoding" else t.fields
        body := [] }
    (t.EndsAtHead ∧ coding ≠ some .gzip ∧ coding ≠ some .deflate →
      action = config.onResponse endpoint (channel.prepare request) handed hops) ∧
    (t.EndsAtHead ∧ (coding = some .gzip ∨ coding = some .deflate) →
      action = .error (.content (.inflate .truncated))) ∧
    (¬ t.EndsAtHead → ∃ e ∈ [ReadError.closedEarly, .invalidLength, .bodyTooLarge],
      action = .error (.read e)) ∧
    ∀ hop, action = .ok (.follow hop) → hop.request.method = .head := by
  intro action coding handed
  have haction : action = _ := action_of_connect hconnect request hops
  obtain ⟨hends, hfails⟩ := answer_of_headAlone hconnect hwrite hreply hpieces h hform hfinal
  have hfields : t.response.headers = t.fields := by
    simp [ResponseText.response, hform, BodyText.trailers]
  have hbody : t.response.body = [] := by simp [ResponseText.response, hform, BodyText.body]
  have hdecode := ContentCoding.decode_of_empty hbody
  simp only [hfields, hbody] at hdecode
  refine ⟨?_, ?_, fun hnot => ?_, fun hop hfollow => ?_⟩
  · rintro ⟨hthere, hgzip, hdeflate⟩
    rw [haction, hends hthere, hdecode, if_neg (not_or.2 ⟨hgzip, hdeflate⟩)]
    rfl
  · rintro ⟨hthere, hcoded⟩
    rw [haction, hends hthere, hdecode, if_pos hcoded]
    rfl
  · obtain ⟨e, he, hfailed⟩ := hfails hnot
    exact ⟨e, he, by rw [haction, hfailed]; rfl⟩
  · have hredirect := redirect?_of_connect hconnect
    obtain ⟨response, hresponse⟩ := onResponse_of_exchange hredirect hfollow
    exact method_of_follow ((channel.method_prepare request).trans hmethod) hresponse

/-! ### Three heads -/

def headWith (status : Nat) (reason : String) (field : Field) : ResponseText where
  version := "HTTP/1.1"
  digits := Text.decimal status
  status := status
  reason := some reason
  lines := [field.line]
  body := .bodiless

theorem wellFormedHead_headWith {status : Nat} {reason : String} {field : Field}
    (hrange : 100 ≤ status ∧ status < 1000)
    (hstatus : 13 ∉ Bytes.ofString (headWith status reason field).statusText)
    (hname : ':' ∉ field.name.toList) (hfield : 13 ∉ Bytes.ofString field.line.text)
    (hlength : (headWith status reason field).head.length ≤ ResponseReader.maxHeadBytes) :
    (headWith status reason field).WellFormedHead where
  is_version := ResponseText.isVersion_http11
  status_spelled := Text.spells_decimal status
  status_range := hrange
  status_line := Bytes.isLine_of_not_mem hstatus
  lines_plain := by
    intro line hline
    rw [List.mem_singleton.1 hline]
    exact ⟨hname, Bytes.isLine_of_not_mem hfield⟩
  head_length := hlength

def pageHead : Stop where
  endpoint := ⟨.http, "a.example", 80, "/page"⟩
  request := { method := .head, path := "/page" }
  config := { origin := ⟨0, "http://a.example/page"⟩ }
  hops := 0

def pageHeadBytes : Bytes :=
  Bytes.ofString "HEAD /page HTTP/1.1\r\nHost: a.example\r\nConnection: close\r\n" ++
    Bytes.ofString "Accept-Encoding: gzip, deflate\r\n\r\n"

/-- A network on which everything is answered with the same pieces. -/
def answering (pieces : List Bytes) : Network where
  connect _ _ _ := .ok { localAddress := ⟨.v4 127 0 0 1, 50000⟩, reply := fun _ => { pieces } }

def pageChannel (pieces : List Bytes) : Channel where
  endpoint := pageHead.endpoint
  pipeline := .ofConfig pageHead.config
  line := { localAddress := ⟨.v4 127 0 0 1, 50000⟩, reply := fun _ => { pieces } }

theorem connect_pageChannel (pieces : List Bytes) :
    connect (answering pieces) 0 pageHead.endpoint pageHead.config = .ok (pageChannel pieces) := rfl

theorem write_pageHead (pieces : List Bytes) :
    (pageChannel pieces).write ((pageChannel pieces).prepare pageHead.request) =
      .ok pageHeadBytes := by
  -- The bytes that are written do not depend on those that will come back.
  change (pageChannel []).write ((pageChannel []).prepare pageHead.request) = _
  decide +kernel

/-- An answer in two pieces, the first of which ends inside a line. -/
def cut (text : String) : List Bytes :=
  [(Bytes.ofString text).take 24, (Bytes.ofString text).drop 24]

theorem flatten_cut (text : String) : (cut text).flatten = Bytes.ofString text := by
  simp [cut]

/-- A head that sends the client elsewhere, with a GET if it did not ask for a head. -/
def seeOther : ResponseText :=
  headWith 303 "See Other" ⟨"Location", "/other"⟩

theorem wellFormedHead_seeOther : seeOther.WellFormedHead :=
  wellFormedHead_headWith (by decide) (by decide) (by decide) (by decide) (by decide)

/-- The other page is asked for its head. -/
theorem action_of_seeOther :
    let pieces := cut "HTTP/1.1 303 See Other\r\nLocation: /other\r\n\r\n"
    ((pageChannel pieces).exchange pageHead.request pageHead.hops).action =
      .ok (.follow {
        endpoint := ⟨.http, "a.example", 80, "/other"⟩
        request :=
          { method := .head
            path := "/other"
            headers := [⟨"Connection", "close"⟩, ⟨"Accept-Encoding", "gzip, deflate"⟩] }
        config := pageHead.config
        status := 303
        hops := 1 }) := by
  intro pieces
  have hpieces : pieces.flatten = seeOther.bytes := by
    rw [flatten_cut]
    decide
  have hends : seeOther.EndsAtHead :=
    (ResponseReader.endsAtHead_iff (by decide)).2 (by decide +kernel)
  have hcoding : seeOther.fields.get? "Content-Encoding" = none := by decide +kernel
  have haction := (action_of_headAlone (connect_pageChannel pieces) rfl (write_pageHead pieces) rfl
    hpieces wellFormedHead_seeOther rfl (by decide) pageHead.hops).1
      ⟨hends, by simp [hcoding], by simp [hcoding]⟩
  rw [haction]
  decide +kernel

def sized : ResponseText :=
  headWith 200 "OK" ⟨"Content-Length", "5"⟩

theorem wellFormedHead_sized : sized.WellFormedHead :=
  wellFormedHead_headWith (by decide) (by decide) (by decide) (by decide) (by decide)

def coded : ResponseText :=
  headWith 200 "OK" ⟨"Content-Encoding", "gzip"⟩

theorem wellFormedHead_coded : coded.WellFormedHead :=
  wellFormedHead_headWith (by decide) (by decide) (by decide) (by decide) (by decide)

/-- **HEAD requests that fail.** A head that states a length is taken for a response that breaks
off, and one that names a coding for a response whose body is no compressed data. -/
theorem action_of_announced :
    let sizedPieces := cut "HTTP/1.1 200 OK\r\nContent-Length: 5\r\n\r\n"
    let codedPieces := cut "HTTP/1.1 200 OK\r\nContent-Encoding: gzip\r\n\r\n"
    (∃ e, ((pageChannel sizedPieces).exchange pageHead.request pageHead.hops).action =
      .error (.read e)) ∧
    ((pageChannel codedPieces).exchange pageHead.request pageHead.hops).action =
      .error (.content (.inflate .truncated)) := by
  intro sizedPieces codedPieces
  constructor
  · have hpieces : sizedPieces.flatten = sized.bytes := by
      rw [flatten_cut]
      decide
    have hlength : ResponseReader.statedLength sized.fields = .ok (some 5) :=
      ResponseReader.statedLength_of_head? (by decide +kernel : _ = some "5") (by decide)
    have hannounces : ¬ sized.EndsAtHead := by
      have hbody : ResponseReader.isBodiless sized.status = false := by decide
      rw [ResponseReader.endsAtHead_iff (by decide), hlength, hbody]
      simp
    obtain ⟨e, -, hfailed⟩ := (answer_of_headAlone (connect_pageChannel sizedPieces)
      (write_pageHead sizedPieces) rfl hpieces wellFormedHead_sized rfl (by decide)).2 hannounces
    refine ⟨e, ?_⟩
    rw [action_of_connect (connect_pageChannel sizedPieces), hfailed]
    rfl
  · have hpieces : codedPieces.flatten = coded.bytes := by
      rw [flatten_cut]
      decide
    have hends : coded.EndsAtHead :=
      (ResponseReader.endsAtHead_iff (by decide)).2 (by decide +kernel)
    have hcoding : (coded.response.headers.get? "Content-Encoding").bind
        ContentCoding.ofValue? = some .gzip := by decide +kernel
    have hbody : coded.response.body = [] := rfl
    have hanswer := (answer_of_headAlone (connect_pageChannel codedPieces)
      (write_pageHead codedPieces) rfl hpieces wellFormedHead_coded rfl (by decide)).1 hends
    rw [action_of_connect (connect_pageChannel codedPieces), hanswer,
      ContentCoding.decode_of_empty hbody, if_pos (.inl hcoding)]
    rfl

end Channel

end Exchange

end WebClient
