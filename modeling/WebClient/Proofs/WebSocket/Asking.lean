import WebClient.Proofs.Http.Setting
import WebClient.Proofs.Text.Letter
import WebClient.WebSocket.Upgrade

/-!
# Asking for a WebSocket

The request for a WebSocket carries the fields of the caller beside those that make it such a
request, and the caller may name any of them, in any spelling and any number of times. The host is
set before the caller's fields and the others behind them, so that the first field names the host
and the others that make up the request have the values they must have (`request_fields`). Of the
caller's other fields the request has what setting them one after the other leaves.
-/

namespace WebClient.WebSocket.Upgrade

open Http

def reserved (u : Upgrade) : List String :=
  ["Host", "Upgrade", "Connection", "Sec-WebSocket-Key", "Sec-WebSocket-Version"] ++
    if u.subprotocols = [] then [] else ["Sec-WebSocket-Protocol"]

theorem names_host_cons (u : Upgrade) (key : String) :
    Headers.names (⟨"Host", u.host⟩ :: u.ownHeaders key) = u.reserved := by
  unfold reserved ownHeaders
  cases u.subprotocols <;> rfl

theorem distinct_host_cons (u : Upgrade) (key : String) :
    Headers.Distinct (⟨"Host", u.host⟩ :: u.ownHeaders key) := by
  rw [Headers.distinct_iff_names, names_host_cons, reserved]
  split <;> decide +kernel

theorem distinct_ownHeaders (u : Upgrade) (key : String) : (u.ownHeaders key).Distinct :=
  (List.pairwise_cons.1 (u.distinct_host_cons key)).2

theorem requestHeaders_eq (u : Upgrade) (key : String) :
    u.requestHeaders key =
      Headers.setAll [] (⟨"Host", u.host⟩ :: u.headers ++ u.ownHeaders key) := by
  rw [Headers.setAll_append]
  rfl

theorem distinct_requestHeaders (u : Upgrade) (key : String) :
    (u.requestHeaders key).Distinct := by
  rw [requestHeaders_eq]
  exact Headers.Distinct.setAll .nil _

/-- A name has the value that it must have, else the caller's last for it. -/
theorem get?_requestHeaders (u : Upgrade) (key name : String) :
    (u.requestHeaders key).get? name =
      ((u.ownHeaders key).get? name).or
        ((u.headers.values name).getLast?.or (Headers.get? [⟨"Host", u.host⟩] name)) := by
  -- No field of the request's own is set twice, so the last value for it is the only one.
  rw [requestHeaders, Headers.get?_setAll, Headers.get?_setAll,
    (u.distinct_ownHeaders key).values_eq]
  cases (u.ownHeaders key).get? name <;> rfl

theorem values_requestHeaders_of_mem (u : Upgrade) {key : String} {field : Http.Field}
    (h : field ∈ u.ownHeaders key) : (u.requestHeaders key).values field.name = [field.value] := by
  rw [(u.distinct_requestHeaders key).values_eq, get?_requestHeaders,
    (u.distinct_ownHeaders key).get?_of_mem h]
  rfl

theorem exists_requestHeaders_eq (u : Upgrade) (key : String) (before : Headers)
    {after : Headers} {field : Http.Field}
    (hsplit : ⟨"Host", u.host⟩ :: u.headers = before ++ field :: after)
    (hfirst : before.has field.name = false) :
    ∃ (front : Headers) (value : String) (back : Headers),
      u.requestHeaders key = front ++ ⟨field.name, value⟩ :: back ∧
      front.names = firstSpellings before.names ∧ front.has field.name = false ∧
      back.has field.name = false ∧ (u.requestHeaders key).get? field.name = some value := by
  obtain ⟨front, value, back, heq, hfront, hnone, hnone'⟩ :=
    Headers.exists_setAll_nil_eq before (after ++ u.ownHeaders key) hfirst
  have hrequest : u.requestHeaders key = front ++ ⟨field.name, value⟩ :: back := by
    rw [requestHeaders_eq, hsplit, ← heq, List.append_assoc, List.cons_append]
  have hmem : ⟨field.name, value⟩ ∈ u.requestHeaders key := by simp [hrequest]
  exact ⟨front, value, back, hrequest, hfront, hnone, hnone',
    (u.distinct_requestHeaders key).get?_of_mem hmem⟩

theorem head?_requestHeaders (u : Upgrade) (key : String) :
    (u.requestHeaders key).head? =
      some ⟨"Host", (u.headers.values "Host").getLast?.getD u.host⟩ := by
  obtain ⟨front, value, back, heq, hfront, -, -, hvalue⟩ :=
    u.exists_requestHeaders_eq key [] (List.nil_append _).symm rfl
  obtain rfl : front = [] := List.map_eq_nil_iff.1 hfront
  have hhost : (u.ownHeaders key).get? "Host" = none :=
    Headers.get?_eq_none ((u.distinct_host_cons key).has_tail (isNamed_self ..))
  rw [get?_requestHeaders, hhost, Headers.get?_cons_of_isNamed (isNamed_self ..),
    Option.none_or, Option.or_some] at hvalue
  rw [heq, ← Option.some.inj hvalue]
  rfl

/-- **The caller's fields cannot break the request.** Whatever fields the caller adds, the request
is a GET for the path under the key that is kept, no name stands twice in it, its first field names
the host, and the fields that ask for a WebSocket have the values they must have. A field of the
caller's that is the first of its name, and whose name is none of those, stands behind the names
that were set before it, with the caller's last value for its name. -/
theorem request_fields (u : Upgrade) (nonce : Nonce) : ∃ (key : String) (headers : Headers),
    u.request nonce = ({ u with key := some key },
      { method := .get, path := u.path, headers, body := none }) ∧
    headers.Distinct ∧
    headers.head? = some ⟨"Host", (u.headers.values "Host").getLast?.getD u.host⟩ ∧
    headers.values "Upgrade" = ["websocket"] ∧
    headers.values "Connection" = ["Upgrade"] ∧
    headers.values "Sec-WebSocket-Key" = [key] ∧
    headers.values "Sec-WebSocket-Version" = ["13"] ∧
    (u.subprotocols ≠ [] →
      headers.values "Sec-WebSocket-Protocol" = [", ".intercalate u.subprotocols]) ∧
    ∀ (before : Headers) (field : Http.Field) (after : Headers),
      u.headers = before ++ field :: after → before.has field.name = false →
      (∀ name ∈ u.reserved, field.isNamed name = false) →
        ∃ (front : Headers) (value : String) (back : Headers),
          headers = front ++ ⟨field.name, value⟩ :: back ∧
          front.names = firstSpellings ("Host" :: before.names) ∧
          front.has field.name = false ∧ back.has field.name = false ∧
          (u.headers.values field.name).getLast? = some value := by
  obtain ⟨key, hkey⟩ : ∃ key, key = Base64.encode nonce.bytes := ⟨_, rfl⟩
  have hown {name value : String} (hmem : ⟨name, value⟩ ∈ u.ownHeaders key) :
      (u.requestHeaders key).values name = [value] := u.values_requestHeaders_of_mem hmem
  refine ⟨key, u.requestHeaders key, by rw [hkey]; rfl, u.distinct_requestHeaders key,
    u.head?_requestHeaders key, hown (by simp [ownHeaders]), hown (by simp [ownHeaders]),
    hown (by simp [ownHeaders]), hown (by simp [ownHeaders]),
    fun hsome => hown (by simp [ownHeaders, hsome]), ?_⟩
  intro before field after hcaller hfirst hfree
  have hother : Headers.has (⟨"Host", u.host⟩ :: u.ownHeaders key) field.name = false := by
    rw [← Headers.any_names, names_host_cons, List.any_eq_false]
    exact fun name hname => ne_true_of_eq_false (hfree name hname)
  obtain ⟨hhost, hown⟩ := Bool.or_eq_false_iff.1 hother
  obtain ⟨front, value, back, heq, hfront, hnone, hnone', hvalue⟩ :=
    u.exists_requestHeaders_eq key (⟨"Host", u.host⟩ :: before)
      (congrArg (⟨"Host", u.host⟩ :: ·) hcaller) (Bool.or_eq_false_iff.2 ⟨hhost, hfirst⟩)
  refine ⟨front, value, back, heq, hfront, hnone, hnone', ?_⟩
  rw [get?_requestHeaders, Headers.get?_eq_none hown, Headers.get?_cons_of_not hhost,
    Option.none_or] at hvalue
  exact (Option.or_none ..).symm.trans hvalue

def intruding : Upgrade where
  host := "h"
  path := "/chat"
  subprotocols := ["chat", "superchat"]
  headers := [⟨"UPGRADE", "h2c"⟩, ⟨"x-a", "1"⟩, ⟨"hOST", "other"⟩, ⟨"X-A", "2"⟩]

theorem request_fields_intruding : ∃ (key : String) (headers : Headers),
    (intruding.request ⟨Bytes.ofString "the sample nonce", by decide +kernel⟩).2.headers = headers ∧
    headers.Distinct ∧ headers.head? = some ⟨"Host", "other"⟩ ∧
    headers.values "Upgrade" = ["websocket"] ∧ headers.values "Sec-WebSocket-Key" = [key] ∧
    headers.values "Sec-WebSocket-Protocol" = ["chat, superchat"] ∧
    ∃ (front back : Headers), headers = front ++ ⟨"x-a", "2"⟩ :: back ∧
      front.names = ["Host", "UPGRADE"] := by
  obtain ⟨key, headers, hrequest, hdistinct, hhost, hupgrade, -, hkey, -, hprotocol, hother⟩ :=
    intruding.request_fields ⟨Bytes.ofString "the sample nonce", by decide +kernel⟩
  have hlastHost : (intruding.headers.values "Host").getLast? = some "other" := by
    have hsame : (Http.Field.mk "hOST" "other").isNamed "Host" = true :=
      Text.eqIgnoringCase_iff_toList.2 (by decide +kernel)
    have hnames : (Http.Field.mk "UPGRADE" "h2c").isNamed "Host" = false ∧
        (Http.Field.mk "x-a" "1").isNamed "Host" = false ∧
        (Http.Field.mk "X-A" "2").isNamed "Host" = false := by decide +kernel
    simp [intruding, hsame, hnames, Headers.values]
  obtain ⟨front, value, back, heq, hfront, -, -, hvalue⟩ := hother [⟨"UPGRADE", "h2c"⟩] ⟨"x-a", "1"⟩
    [⟨"hOST", "other"⟩, ⟨"X-A", "2"⟩] rfl (by decide +kernel) (by decide +kernel)
  have hlast : (intruding.headers.values "x-a").getLast? = some "2" := by
    have hsame : (Http.Field.mk "X-A" "2").isNamed "x-a" = true :=
      Text.eqIgnoringCase_iff_toList.2 (by decide +kernel)
    have hnames : (Http.Field.mk "UPGRADE" "h2c").isNamed "x-a" = false ∧
        (Http.Field.mk "hOST" "other").isNamed "x-a" = false := by decide +kernel
    simp [intruding, hsame, hnames, Headers.values]
  obtain rfl : "2" = value := Option.some.inj (hlast.symm.trans hvalue)
  have hnames : firstSpellings ["Host", "UPGRADE"] = ["Host", "UPGRADE"] := by decide +kernel
  rw [hlastHost] at hhost
  exact ⟨key, headers, congrArg (·.2.headers) hrequest, hdistinct, hhost, hupgrade, hkey,
    hprotocol (by decide), front, back, heq, hfront.trans hnames⟩

end WebClient.WebSocket.Upgrade
