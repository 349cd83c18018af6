import KubeMQ.Client.Options
import KubeMQ.Text.Strings

/-!
# The broker address

`ClientOptions::set_address` of `client_options.cc`: the address in `host:port` form against the
host and the port it sets, and what `Validate` then accepts.
-/

namespace KubeMQ
open Digits Strings

namespace ClientOptions

/-- `set_address(host, port)`. -/
def setAddress (o : ClientOptions) (host : String) (port : Int) : ClientOptions :=
  { o with host := host, port := port }

/-- `set_address(address)`. -/
def parseAddress (o : ClientOptions) (address : String) : ClientOptions :=
  let address := address.toList
  match rfind ':' address with
  | some pos =>
    if pos < address.length - 1 then
      { o with host := String.ofList (address.take pos)
               port := (stoi (address.drop (pos + 1))).getD 0 }
    else { o with host := String.ofList address, port := 0 }
  | none => { o with host := String.ofList address, port := 0 }

end ClientOptions

/-- `address` is `host:port` with a port of decimal digits between 1 and 65535. -/
def IsHostPort (address host : String) (port : ℕ) : Prop :=
  ∃ digits : List Char, address.toList = host.toList ++ ':' :: digits ∧ host ≠ "" ∧ digits ≠ [] ∧
    (∀ c ∈ digits, c.isDigit) ∧ value 10 digits = port ∧ 1 ≤ port ∧ port ≤ 65535

/-- Accepted are the addresses `host:port`, and host and port are what they name. -/
def ParsesExactly (address : String) : Prop :=
  ((ClientOptions.parseAddress {} address).validate.ok ↔
      ∃ host port, IsHostPort address host port) ∧
    ∀ host port, IsHostPort address host port →
      (ClientOptions.parseAddress {} address).host = host ∧
        (ClientOptions.parseAddress {} address).port = port

/-- After the last colon stands a port that is not digits alone: it has blanks or a plus sign before
it, or other characters behind it. -/
def LoosePort (address : String) : Prop :=
  ∃ (host : List Char) (n : Numeral), address.toList = host ++ ':' :: n.text ∧ ':' ∉ n.text ∧
    host ≠ [] ∧ n.sign ≠ ['-'] ∧ 1 ≤ value 10 n.digits ∧ value 10 n.digits ≤ 65535 ∧
    (n.blanks ≠ [] ∨ n.sign ≠ [] ∨ n.rest ≠ [])

namespace ClientOptions

/-- With the other options at their defaults only host and port can fail the check. -/
lemma validate_ok_iff (host : String) (port : Int) :
    (validate { host := host, port := port }).ok ↔ host ≠ "" ∧ 1 ≤ port ∧ port ≤ 65535 := by
  unfold validate
  by_cases hhost : host = ""
  · simp [hhost, invalid, Status.ok]
  · by_cases hlow : port ≤ 0
    · simp [hhost, hlow, invalid, Status.ok]
      omega
    · by_cases hhigh : port > 65535
      · simp [hhost, hlow, hhigh, invalid, Status.ok]
      · simp [hhost, hlow, hhigh, Status.ok, Status.okStatus]
        omega

lemma parseAddress_of_split (o : ClientOptions) {address : String} {host port : List Char}
    (h : address.toList = host ++ ':' :: port) (hport : ':' ∉ port) (hne : port ≠ []) :
    o.parseAddress address =
      { o with host := String.ofList host, port := (stoi port).getD 0 } := by
  have hlen : 0 < port.length := List.length_pos_iff.mpr hne
  unfold parseAddress
  simp only [h, rfind_append host hport]
  rw [if_pos]
  · simp
  · simp only [List.length_append, List.length_cons]
    omega

/-- Without a text after a colon the port is zero, which `Validate` refuses. -/
lemma parseAddress_rejected {address : String}
    (h : ∀ host port, address.toList = host ++ ':' :: port → ':' ∉ port → port = []) :
    ¬(parseAddress {} address).validate.ok := by
  have hport : ∃ host, parseAddress {} address = { host := host, port := 0 } := by
    unfold parseAddress
    by_cases hmem : ':' ∈ address.toList
    · obtain ⟨host, port, hsplit, hnot⟩ := exists_split hmem
      obtain rfl := h host port hsplit hnot
      rw [hsplit]
      simp only [rfind_append host hnot]
      rw [if_neg]
      · exact ⟨_, rfl⟩
      · simp
    · simp only [rfind_eq_none.mpr hmem]
      exact ⟨_, rfl⟩
  obtain ⟨host, hport⟩ := hport
  rw [hport, validate_ok_iff]
  omega

end ClientOptions

/-- The texts that `stoi` reads as a port number. -/
def ReadsPort (port : List Char) (n : Numeral) : Prop :=
  n.text = port ∧ n.sign ≠ ['-'] ∧ 1 ≤ value 10 n.digits ∧ value 10 n.digits ≤ 65535

lemma ReadsPort.stoi_eq {port : List Char} {n : Numeral} (h : ReadsPort port n) :
    stoi port = some (value 10 n.digits : ℤ) := by
  obtain ⟨htext, hsign, hlow, hhigh⟩ := h
  apply stoi_eq_some.mpr
  refine ⟨n, htext, ?_, by omega, by omega⟩
  simp [Numeral.number, hsign]

lemma exists_readsPort {port : List Char} (hlow : 1 ≤ (stoi port).getD 0)
    (hhigh : (stoi port).getD 0 ≤ 65535) : ∃ n, ReadsPort port n := by
  cases hv : stoi port with
  | none =>
    rw [hv] at hlow
    exact absurd hlow (by decide)
  | some v =>
    rw [hv, Option.getD_some] at hlow hhigh
    obtain ⟨n, htext, hnumber, -, -⟩ := stoi_eq_some.mp hv
    have hsign : n.sign ≠ ['-'] := by
      intro hminus
      rw [Numeral.number, if_pos hminus] at hnumber
      omega
    rw [Numeral.number, if_neg hsign] at hnumber
    exact ⟨n, htext, hsign, by omega, by omega⟩

lemma isHostPort_iff {address : String} {host port : List Char}
    (h : address.toList = host ++ ':' :: port) (hport : ':' ∉ port) {host' : String} {n : ℕ} :
    IsHostPort address host' n ↔ host'.toList = host ∧ host ≠ [] ∧ port ≠ [] ∧
      (∀ c ∈ port, c.isDigit) ∧ value 10 port = n ∧ 1 ≤ n ∧ n ≤ 65535 := by
  constructor
  · rintro ⟨digits, hsplit, hhost, hne, hdigits, hrange⟩
    have hcolon : ':' ∉ digits := fun hc => absurd (hdigits _ hc) (by decide)
    obtain ⟨rfl, rfl⟩ := split_unique hport hcolon (h.symm.trans hsplit)
    refine ⟨rfl, ?_, hne, hdigits, hrange⟩
    intro hnil
    exact hhost (String.toList_eq_nil_iff.mp hnil)
  · rintro ⟨rfl, hhost, hne, hdigits, hrange⟩
    refine ⟨port, h, ?_, hne, hdigits, hrange⟩
    rintro rfl
    exact hhost rfl

lemma loosePort_iff {address : String} {host port : List Char}
    (h : address.toList = host ++ ':' :: port) (hport : ':' ∉ port) :
    LoosePort address ↔ host ≠ [] ∧
      ∃ n, ReadsPort port n ∧ (n.blanks ≠ [] ∨ n.sign ≠ [] ∨ n.rest ≠ []) := by
  constructor
  · rintro ⟨host', n, hsplit, hcolon, hhost, hsign, hlow, hhigh, hloose⟩
    obtain ⟨rfl, rfl⟩ := split_unique hport hcolon (h.symm.trans hsplit)
    exact ⟨hhost, n, ⟨rfl, hsign, hlow, hhigh⟩, hloose⟩
  · rintro ⟨hhost, n, ⟨rfl, hsign, hlow, hhigh⟩, hloose⟩
    exact ⟨host, n, h, hport, hhost, hsign, hlow, hhigh, hloose⟩

/-- An address with a text after its last colon is accepted when `stoi` reads a port there. -/
lemma accepted_iff {address : String} {host port : List Char}
    (h : address.toList = host ++ ':' :: port) (hport : ':' ∉ port) (hne : port ≠ []) :
    (ClientOptions.parseAddress {} address).validate.ok ↔
      host ≠ [] ∧ ∃ n, ReadsPort port n := by
  have hempty : String.ofList host ≠ "" ↔ host ≠ [] := by
    simp
  rw [ClientOptions.parseAddress_of_split {} h hport hne, ClientOptions.validate_ok_iff, hempty]
  constructor
  · rintro ⟨hhost, hlow, hhigh⟩
    exact ⟨hhost, exists_readsPort hlow hhigh⟩
  · rintro ⟨hhost, n, hn⟩
    rw [hn.stoi_eq, Option.getD_some]
    obtain ⟨-, -, hlow, hhigh⟩ := hn
    exact ⟨hhost, by omega, by omega⟩

/-- Digits that denote a port are read as it. -/
lemma readsPort_of_digits {port : List Char} (hne : port ≠ []) (hdigits : ∀ c ∈ port, c.isDigit)
    (hlow : 1 ≤ value 10 port) (hhigh : value 10 port ≤ 65535) :
    ReadsPort port (.plain port hne hdigits) :=
  ⟨Numeral.text_plain port hne hdigits, by simp [Numeral.plain], hlow, hhigh⟩

lemma parsesExactly_of_split {address : String} {host port : List Char}
    (h : address.toList = host ++ ':' :: port) (hport : ':' ∉ port) (hne : port ≠ []) :
    ParsesExactly address ↔ ¬LoosePort address := by
  unfold ParsesExactly
  rw [accepted_iff h hport hne, loosePort_iff h hport]
  simp only [isHostPort_iff h hport]
  constructor
  · rintro ⟨hiff, -⟩ ⟨hhost, n, hn, hloose⟩
    obtain ⟨-, -, -, -, -, hdigits, -⟩ := hiff.mp ⟨hhost, n, hn⟩
    rw [← hn.1] at hdigits
    obtain ⟨hblanks, hsign, hrest⟩ := n.plain_of_isDigit hdigits
    simp [hblanks, hsign, hrest] at hloose
  · intro hstrict
    refine ⟨⟨?_, ?_⟩, ?_⟩
    · rintro ⟨hhost, n, hn⟩
      have hplain : n.blanks = [] ∧ n.sign = [] ∧ n.rest = [] := by
        by_contra hloose
        apply hstrict
        refine ⟨hhost, n, hn, ?_⟩
        tauto
      have hport : port = n.digits := by
        rw [← hn.1]
        simp [Numeral.text, hplain]
      subst hport
      exact ⟨String.ofList host, _, by simp, hhost, n.digits_ne_nil, n.digits_isDigit, rfl, hn.2.2⟩
    · rintro ⟨host', n, -, hhost, -, hdigits, rfl, hlow, hhigh⟩
      exact ⟨hhost, _, readsPort_of_digits hne hdigits hlow hhigh⟩
    · rintro host' n ⟨rfl, hhost, -, hdigits, rfl, hlow, hhigh⟩
      rw [ClientOptions.parseAddress_of_split {} h hport hne,
        (readsPort_of_digits hne hdigits hlow hhigh).stoi_eq]
      exact ⟨String.ofList_toList, rfl⟩

/-- An address with no text after a colon is refused, and it is no `host:port`. -/
lemma parsesExactly_of_no_port {address : String}
    (h : ∀ host port, address.toList = host ++ ':' :: port → ':' ∉ port → port = []) :
    ParsesExactly address ∧ ¬LoosePort address := by
  have hno : ∀ host n, ¬IsHostPort address host n := by
    rintro host n ⟨digits, hsplit, -, hne, hdigits, -⟩
    exact hne (h host.toList digits hsplit (fun hc => absurd (hdigits _ hc) (by decide)))
  refine ⟨⟨?_, fun host n hn => absurd hn (hno host n)⟩, ?_⟩
  · constructor
    · intro hok
      exact absurd hok (ClientOptions.parseAddress_rejected h)
    · rintro ⟨host, n, hn⟩
      exact absurd hn (hno host n)
  · rintro ⟨host, n, hsplit, hcolon, -⟩
    have hnil := h host n.text hsplit hcolon
    obtain ⟨d, ds, hd, -⟩ := n.exists_digit
    simp [Numeral.text, hd] at hnil

/-- The two overloads agree on every port and host, colons in the host included. -/
lemma parseAddress_toString (o : ClientOptions) (host : String) {port : ℕ} (hlow : 1 ≤ port)
    (hhigh : port ≤ 65535) :
    o.parseAddress (host ++ ":" ++ toString port) = o.setAddress host port := by
  have hdigits : ∀ c ∈ Nat.toDigits 10 port, c.isDigit :=
    fun c hc => Nat.isDigit_of_mem_toDigits (by decide) (by decide) hc
  have hvalue : value 10 (Nat.toDigits 10 port) = port :=
    value_toDigits (by decide) (by decide) port
  have hread := readsPort_of_digits Nat.toDigits_ne_nil hdigits (by omega) (by omega)
  have hsplit : (host ++ ":" ++ toString port).toList =
      host.toList ++ ':' :: Nat.toDigits 10 port := by
    simp
  rw [o.parseAddress_of_split hsplit (fun hc => absurd (hdigits _ hc) (by decide))
    Nat.toDigits_ne_nil, hread.stoi_eq, String.ofList_toList]
  show ClientOptions.setAddress o host (value 10 (Nat.toDigits 10 port) : ℕ) = _
  rw [hvalue]

/-- An address parses exactly when its port is not a loose one; printed addresses always do. -/
theorem parsesExactly_iff (address : String) :
    (ParsesExactly address ↔ ¬LoosePort address) ∧
      ∀ (o : ClientOptions) (host : String) (port : ℕ), 1 ≤ port → port ≤ 65535 →
        o.parseAddress (host ++ ":" ++ toString port) = o.setAddress host port := by
  refine ⟨?_, fun o host port => parseAddress_toString o host⟩
  by_cases h : ∃ host port, address.toList = host ++ ':' :: port ∧ ':' ∉ port ∧ port ≠ []
  · obtain ⟨host, port, hsplit, hcolon, hne⟩ := h
    exact parsesExactly_of_split hsplit hcolon hne
  · have hno : ∀ host port, address.toList = host ++ ':' :: port → ':' ∉ port → port = [] := by
      intro host port hsplit hcolon
      by_contra hne
      exact h ⟨host, port, hsplit, hcolon, hne⟩
    obtain ⟨hparses, hstrict⟩ := parsesExactly_of_no_port hno
    exact iff_of_true hparses hstrict

theorem parsesExactly_not_trailing : ¬ParsesExactly "localhost:50000abc" := by
  have haccepted : (ClientOptions.parseAddress {} "localhost:50000abc").validate.ok := by
    decide
  rintro ⟨hiff, -⟩
  obtain ⟨host, port, hhost⟩ := hiff.mp haccepted
  have hsplit : "localhost:50000abc".toList = "localhost".toList ++ ':' :: "50000abc".toList := rfl
  obtain ⟨-, -, -, hdigits, -⟩ := (isHostPort_iff hsplit (by decide)).mp hhost
  exact absurd (hdigits 'a' (by decide)) (by decide)

end KubeMQ
