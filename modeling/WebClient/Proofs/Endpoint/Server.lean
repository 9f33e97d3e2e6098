import WebClient.Endpoint.Parse
import WebClient.Proofs.Text.Numeral
import WebClient.Proofs.Text.Split

/-!
# Servers

What is left of an authority without user information names a host and perhaps a port. The host may
stand between brackets, which an address with colons in it needs; otherwise it goes on to the last
colon. `ServerNames` is the form, and a server is read exactly when it has it
(`splitHostPort_eq_ok_iff`).
-/

namespace WebClient.Endpoint

/-- A port is written in digits, which may have a plus sign in front. -/
def IsPort (numeral : List Char) (port : UInt16) : Prop :=
  Text.Spells 10 port.toNat numeral ∨
    ∃ digits, numeral = '+' :: digits ∧ Text.Spells 10 port.toNat digits

/-- The host and the port that a server is written with. Behind a closing bracket anything but a
colon is passed over. -/
inductive ServerNames (default : UInt16) : (server host : List Char) → (port : UInt16) → Prop
  | plain {host : List Char} (hopen : ¬ ['['] <+: host) (hcolon : ':' ∉ host) :
      ServerNames default host host default
  | plainPort {host numeral : List Char} {port : UInt16} (hopen : ¬ ['['] <+: host)
      (hport : IsPort numeral port) : ServerNames default (host ++ ':' :: numeral) host port
  | bracketed {host passed : List Char} (hclose : ']' ∉ host) (hpassed : ¬ [':'] <+: passed) :
      ServerNames default ('[' :: host ++ ']' :: passed) host default
  | bracketedPort {host numeral : List Char} {port : UInt16} (hclose : ']' ∉ host)
      (hport : IsPort numeral port) :
      ServerNames default ('[' :: host ++ ']' :: ':' :: numeral) host port

theorem readPort_eq_ok_iff {numeral : List Char} {port : UInt16} :
    readPort numeral = .ok port ↔ IsPort numeral port := by
  have hmax : Text.maxOfBits 16 = 65535 := rfl
  have hread : readPort numeral = .ok port ↔
      Text.numeral? 10 (Text.maxOfBits 16) numeral = some port.toNat := by
    rw [readPort]
    cases hcase : Text.numeral? 10 (Text.maxOfBits 16) numeral with
    | none => simp
    | some n =>
      have hle := Text.numeral?_le hcase
      have hn : (UInt16.ofNat n).toNat = n := by
        rw [UInt16.toNat_ofNat']
        omega
      simp only [Except.ok.injEq, Option.some.injEq, ← UInt16.toNat_inj, hn]
  have hle : port.toNat ≤ Text.maxOfBits 16 := by
    have := port.toNat_lt
    omega
  rw [hread, Text.numeral?_eq_some_iff]
  exact and_iff_right hle

theorem IsPort.not_mem {numeral : List Char} {port : UInt16} (h : IsPort numeral port) {c : Char}
    (hsign : c ≠ '+') (hdigit : Text.digitValue? 10 c = none) : c ∉ numeral := by
  rcases h with h | ⟨digits, rfl, h⟩
  · exact h.not_mem hdigit
  · exact List.not_mem_cons_of_ne_of_not_mem hsign (h.not_mem hdigit)

theorem map_readPort_eq_ok_iff {numeral host host' : List Char} {port : UInt16} :
    (readPort numeral).map (host', ·) = .ok (host, port) ↔ host' = host ∧ IsPort numeral port := by
  rw [← readPort_eq_ok_iff]
  cases readPort numeral <;> simp [Except.map]

theorem splitHostPort_of_plain (default : UInt16) {authority : List Char}
    (h : ¬ ['['] <+: authority) :
    splitHostPort default authority =
      match Text.splitLast? ':' authority with
      | some (host, port) => (readPort port).map (host, ·)
      | none => .ok (authority, default) := by
  unfold splitHostPort
  split
  · next bracketed => exact absurd ⟨bracketed, rfl⟩ h
  · rfl

/-- **What a server is read as.** -/
theorem splitHostPort_eq_ok_iff {default port : UInt16} {server host : List Char} :
    splitHostPort default server = .ok (host, port) ↔ ServerNames default server host port := by
  constructor
  · intro h
    unfold splitHostPort at h
    split at h
    · next inside =>
      split at h
      · nomatch h
      · next before numeral hcut =>
        obtain ⟨rfl, hclose⟩ := Text.splitFirst?_eq_some_iff.1 hcut
        obtain ⟨rfl, hport⟩ := map_readPort_eq_ok_iff.1 h
        exact .bracketedPort hclose hport
      · next before passed hother hcut =>
        obtain ⟨rfl, hclose⟩ := Text.splitFirst?_eq_some_iff.1 hcut
        obtain ⟨rfl, rfl⟩ := Prod.mk.inj (Except.ok.inj h)
        refine .bracketed hclose ?_
        rintro ⟨numeral, rfl⟩
        exact hother numeral rfl
    · next hopen =>
      have hopen : ¬ ['['] <+: server := by
        rintro ⟨inside, rfl⟩
        exact hopen inside rfl
      split at h
      · next before numeral hcut =>
        obtain ⟨rfl, -⟩ := Text.splitLast?_eq_some_iff.1 hcut
        obtain ⟨rfl, hport⟩ := map_readPort_eq_ok_iff.1 h
        exact .plainPort (fun hhost => hopen (hhost.trans (List.prefix_append _ _))) hport
      · next hcut =>
        obtain ⟨rfl, rfl⟩ := Prod.mk.inj (Except.ok.inj h)
        exact .plain hopen (Text.splitLast?_eq_none_iff.1 hcut)
  · intro h
    cases h with
    | plain hopen hcolon =>
      rw [splitHostPort_of_plain _ hopen, Text.splitLast?_eq_none_iff.2 hcolon]
    | @plainPort _ numeral _ hopen hport =>
      have hserver : ¬ ['['] <+: host ++ ':' :: numeral := by
        cases host with
        | nil => simp
        | cons c host => simpa using hopen
      have hcut : Text.splitLast? ':' (host ++ ':' :: numeral) = some (host, numeral) :=
        Text.splitLast?_eq_some_iff.2 ⟨rfl, hport.not_mem (by decide) (by decide)⟩
      rw [splitHostPort_of_plain _ hserver, hcut]
      exact map_readPort_eq_ok_iff.2 ⟨rfl, hport⟩
    | @bracketed _ passed hclose hpassed =>
      have hcut : Text.splitFirst? ']' (host ++ ']' :: passed) = some (host, passed) :=
        Text.splitFirst?_eq_some_iff.2 ⟨rfl, hclose⟩
      rw [List.cons_append, splitHostPort, hcut]
      split
      · next heq => nomatch heq
      · next numeral heq =>
        obtain ⟨-, rfl⟩ := Prod.mk.inj (Option.some.inj heq)
        exact absurd ⟨numeral, rfl⟩ hpassed
      · next heq =>
        obtain ⟨rfl, -⟩ := Prod.mk.inj (Option.some.inj heq)
        rfl
    | @bracketedPort _ numeral _ hclose hport =>
      have hcut : Text.splitFirst? ']' (host ++ ']' :: ':' :: numeral) =
          some (host, ':' :: numeral) :=
        Text.splitFirst?_eq_some_iff.2 ⟨rfl, hclose⟩
      rw [List.cons_append, splitHostPort, hcut]
      exact map_readPort_eq_ok_iff.2 ⟨rfl, hport⟩

theorem ServerNames.unique {default port port' : UInt16} {server host host' : List Char}
    (h : ServerNames default server host port) (h' : ServerNames default server host' port') :
    host = host' ∧ port = port' := by
  have heq := (splitHostPort_eq_ok_iff.2 h).symm.trans (splitHostPort_eq_ok_iff.2 h')
  exact Prod.mk.inj (Except.ok.inj heq)

theorem ServerNames.subset {default port : UInt16} {server host : List Char}
    (h : ServerNames default server host port) : host ⊆ server := by
  cases h with
  | plain => exact List.Subset.refl _
  | plainPort => exact List.subset_append_left _ _
  | bracketed | bracketedPort =>
    exact List.Subset.trans (List.subset_cons_self _ _) (List.subset_append_left _ _)

/-- Behind an opening bracket a host ends at the first that closes. -/
theorem ServerNames.bracket {default port : UInt16} {inside host : List Char}
    (h : ServerNames default ('[' :: inside) host port) :
    ∃ after, inside = host ++ ']' :: after ∧ ']' ∉ host := by
  generalize hserver : '[' :: inside = server at h
  cases h with
  | plain hopen => exact absurd ⟨inside, hserver⟩ hopen
  | plainPort hopen =>
    cases host with
    | nil => nomatch hserver
    | cons c host =>
      obtain ⟨rfl, -⟩ := List.cons.inj hserver
      exact absurd ⟨host, rfl⟩ hopen
  | bracketed hclose => exact ⟨_, (List.cons.inj hserver).2, hclose⟩
  | bracketedPort hclose => exact ⟨_, (List.cons.inj hserver).2, hclose⟩

end WebClient.Endpoint
