import ScopedStore.Proofs.Decimal.Digits
import ScopedStore.Url.Parse

/-! The hosts that come of reading web addresses, and their texts. A name is in lower case and no
number, a dotted address fits 32 bits, and a colon one has eight pieces. -/
namespace ScopedStore.Url

theorem dropWhile_of_forall {drop : Char → Bool} {cs : List Char} (h : ∀ c ∈ cs, drop c = false) :
    cs.dropWhile drop = cs := by
  cases cs with
  | nil => rfl
  | cons c rest => exact List.dropWhile_cons_of_neg (by simp [h c List.mem_cons_self])

theorem forall_inName {P : Char → Prop}
    (h : ∀ n < 0x80, isInName (Char.ofNat n) = true → P (Char.ofNat n)) {c : Char}
    (hc : isInName c = true) : P c := by
  have hlt : c.toNat < 0x80 := by
    simp only [isInName, isForbiddenInName, Bool.and_eq_true, Bool.not_eq_true',
      Bool.or_eq_false_iff, decide_eq_false_iff_not] at hc
    omega
  exact Text.forall_ascii (P := fun c => isInName c = true → P c) h hlt hc

namespace Ipv4

theorem foldl_bytes_lt {bytes : List Nat} (h : ∀ byte ∈ bytes, byte ≤ 255) (n : Nat) :
    bytes.foldl (fun n byte => n * 256 + byte) n < (n + 1) * 256 ^ bytes.length := by
  induction bytes generalizing n with
  | nil => simp
  | cons byte rest ih =>
    obtain ⟨hbyte, hrest⟩ := List.forall_mem_cons.mp h
    rw [List.foldl_cons, List.length_cons, pow_succ']
    calc
      _ < (n * 256 + byte + 1) * 256 ^ rest.length := ih hrest _
      _ ≤ ((n + 1) * 256) * 256 ^ rest.length := Nat.mul_le_mul_right _ (by omega)
      _ = (n + 1) * (256 * 256 ^ rest.length) := by ring

theorem parse?_lt {cs : List Char} {address : Nat} (h : parse? cs = some address) :
    address < 2 ^ 32 := by
  obtain ⟨numbers, _, h⟩ := Option.bind_eq_some_iff.mp h
  obtain ⟨last, hlast, h⟩ := Option.bind_eq_some_iff.mp h
  dsimp only at h
  split at h
  · cases h
  next hfits =>
    obtain ⟨hcount, hbytes, hrest⟩ : numbers.length ≤ 4 ∧
        (∀ byte ∈ numbers.dropLast, byte ≤ 255) ∧
        last < 256 ^ (4 - numbers.dropLast.length) := by
      simpa [not_or] using hfits
    cases h
    have hlead := foldl_bytes_lt hbytes 0
    have hlength : numbers.dropLast.length ≤ 4 := by
      rw [List.length_dropLast]
      omega
    calc
      _ < (numbers.dropLast.foldl (fun n byte => n * 256 + byte) 0 + 1) *
          256 ^ (4 - numbers.dropLast.length) := by
        rw [Nat.add_mul, one_mul]
        exact Nat.add_lt_add_left hrest _
      _ ≤ 256 ^ numbers.dropLast.length * 256 ^ (4 - numbers.dropLast.length) :=
        Nat.mul_le_mul_right _ (by simpa using hlead)
      _ = 2 ^ 32 := by
        rw [← pow_add, Nat.add_sub_cancel' hlength]
        norm_num

theorem digits_point_inj {m n : Nat} {rest other : List Char}
    (h : Decimal.digits m ++ '.' :: rest = Decimal.digits n ++ '.' :: other) :
    m = n ∧ rest = other := by
  have hdigits (n : Nat) (rest : List Char) :
      (Decimal.digits n ++ '.' :: rest).takeWhile Char.isDigit = Decimal.digits n := by
    rw [List.takeWhile_append_of_pos (Decimal.isDigit_of_areDigits (Decimal.digits_areDigits n))]
    simp
  have hsame : Decimal.digits m = Decimal.digits n := by
    rw [← hdigits m rest, h, hdigits n other]
  rw [hsame, List.append_cancel_left_eq] at h
  refine ⟨?_, (List.cons_inj_right _).mp h⟩
  rw [← Decimal.value_digits m, hsame, Decimal.value_digits]

theorem chars_inj {address other : Nat} (haddress : address < 2 ^ 32) (hother : other < 2 ^ 32)
    (h : chars address = chars other) : address = other := by
  unfold chars at h
  simp only [List.append_assoc, List.cons_append] at h
  obtain ⟨hfirst, h⟩ := digits_point_inj h
  obtain ⟨hsecond, h⟩ := digits_point_inj h
  obtain ⟨hthird, h⟩ := digits_point_inj h
  have hlast : address % 256 = other % 256 := by
    rw [← Decimal.value_digits (address % 256), h, Decimal.value_digits]
  simp only [Nat.shiftRight_eq_div_pow] at hfirst hsecond hthird
  omega

theorem mem_chars {address : Nat} {c : Char} (h : c ∈ chars address) :
    c.isDigit = true ∨ c = '.' := by
  have hdigits {n : Nat} (h : c ∈ Decimal.digits n) : c.isDigit = true :=
    Decimal.isDigit_of_areDigits (Decimal.digits_areDigits n) c h
  unfold chars at h
  simp only [List.mem_append, List.mem_cons] at h
  rcases h with ((h | h | h) | h | h) | h | h
  all_goals first
    | exact .inl (hdigits h)
    | exact .inr h

end Ipv4

namespace Ipv6

theorem parse?_length {cs : List Char} {pieces : List Nat} (h : parse? cs = some pieces) :
    pieces.length = 8 := by
  unfold parse? at h
  split at h
  · obtain ⟨row, _, h⟩ := Option.bind_eq_some_iff.mp h
    split at h
    next hlength =>
      cases h
      exact hlength
    · cases h
  · obtain ⟨left, _, h⟩ := Option.bind_eq_some_iff.mp h
    obtain ⟨right, _, h⟩ := Option.bind_eq_some_iff.mp h
    split at h
    next hlength =>
      cases h
      simp only [List.length_append, List.length_replicate]
      omega
    · cases h

/-- The characters of pieces. -/
def hexChars : List Char :=
  ['0', '1', '2', '3', '4', '5', '6', '7', '8', '9', 'a', 'b', 'c', 'd', 'e', 'f']

theorem mem_pieceChars {piece : Nat} {c : Char} (h : c ∈ pieceChars piece) : c ∈ hexChars := by
  have hdigit {d : Nat} (hd : d < 16) : d.digitChar ∈ hexChars := by
    interval_cases d <;> decide
  unfold pieceChars at h
  induction piece using Nat.strong_induction_on with
  | _ piece ih =>
    by_cases hlt : piece < 16
    · rw [Nat.toDigits_of_lt_base hlt, List.mem_singleton] at h
      exact h ▸ hdigit hlt
    · rw [Nat.toDigits_of_base_le (by decide) (Nat.le_of_not_lt hlt), List.mem_append,
        List.mem_singleton] at h
      rcases h with h | h
      · exact ih (piece / 16) (by omega) h
      · exact h ▸ hdigit (Nat.mod_lt _ (by decide))

theorem pieceChars_ne_nil (piece : Nat) : pieceChars piece ≠ [] := Nat.toDigits_ne_nil

theorem pieceChars_eq_one {piece : Nat} (h : pieceChars piece = ['1']) : piece = 1 := by
  unfold pieceChars at h
  by_cases hlt : piece < 16
  · rw [Nat.toDigits_of_lt_base hlt] at h
    exact Nat.digitChar_eq_one.mp (List.singleton_inj.mp h)
  · rw [Nat.toDigits_of_base_le (by decide) (Nat.le_of_not_lt hlt)] at h
    have hlength := congrArg List.length h
    have hpos : 0 < (Nat.toDigits 16 (piece / 16)).length := Nat.length_toDigits_pos
    simp only [List.length_append, List.length_singleton] at hlength
    omega

@[simp] theorem rowChars_nil : rowChars [] = [] := rfl

@[simp] theorem rowChars_singleton (piece : Nat) : rowChars [piece] = pieceChars piece := by
  simp [rowChars]

theorem rowChars_cons_cons (piece next : Nat) (rest : List Nat) :
    rowChars (piece :: next :: rest) = pieceChars piece ++ ':' :: rowChars (next :: rest) := by
  simp [rowChars, List.intercalate]

theorem mem_rowChars {pieces : List Nat} {c : Char} (h : c ∈ rowChars pieces) :
    c = ':' ∨ c ∈ hexChars := by
  induction pieces with
  | nil => cases h
  | cons piece rest ih =>
    cases rest with
    | nil => exact .inr (mem_pieceChars (rowChars_singleton piece ▸ h))
    | cons next rest =>
      rw [rowChars_cons_cons, List.mem_append, List.mem_cons] at h
      rcases h with h | h | h
      · exact .inr (mem_pieceChars h)
      · exact .inl h
      · exact ih h

theorem mem_chars {pieces : List Nat} {c : Char} (h : c ∈ chars pieces) :
    c = ':' ∨ c ∈ hexChars := by
  unfold chars at h
  dsimp only at h
  split at h
  · simp only [List.mem_append, List.mem_cons, List.not_mem_nil, or_false] at h
    rcases h with (h | h | h) | h
    · exact mem_rowChars h
    · exact .inl h
    · exact .inl h
    · exact mem_rowChars h
  · exact mem_rowChars h

/-- A row starts with a digit. -/
theorem rowChars_ne_colon (piece : Nat) (rest : List Nat) (behind other : List Char) :
    rowChars (piece :: rest) ++ behind ≠ ':' :: other := by
  intro h
  have hhex : ':' ∈ hexChars → False := by decide
  cases hpiece : pieceChars piece with
  | nil => exact pieceChars_ne_nil piece hpiece
  | cons first digits =>
    have hfirst : first ∈ hexChars := mem_pieceChars (hpiece ▸ List.mem_cons_self)
    have hsame : first = ':' := by
      cases rest with
      | nil =>
        rw [rowChars_singleton, hpiece] at h
        exact (List.cons.inj h).1
      | cons next rest =>
        rw [rowChars_cons_cons, hpiece] at h
        exact (List.cons.inj h).1
    exact hhex (hsame ▸ hfirst)

/-- The first pieces are zeros, as many as the run at their place has. -/
theorem take_runs (pieces : List Nat) :
    pieces.take ((runs pieces).headD 0) = List.replicate ((runs pieces).headD 0) 0 := by
  induction pieces with
  | nil => rfl
  | cons piece rest ih =>
    have hruns : runs (piece :: rest) =
        (if piece = 0 then (runs rest).headD 0 + 1 else 0) :: runs rest := rfl
    rw [hruns, List.headD_cons]
    split
    next hzero => rw [List.take_succ_cons, ih, List.replicate_succ, hzero]
    · rfl

theorem rowChars_eq_one {pieces : List Nat} (h : rowChars pieces = ['1']) : pieces = [1] := by
  match pieces with
  | [] => cases h
  | [piece] =>
    rw [rowChars_singleton] at h
    rw [pieceChars_eq_one h]
  | piece :: next :: rest =>
    rw [rowChars_cons_cons] at h
    have hcolon : ':' ∈ ['1'] := h ▸ List.mem_append_right _ List.mem_cons_self
    exact absurd hcolon (by decide)

/-- Of the addresses only one is written as two colons and a one. -/
theorem chars_eq_one {pieces : List Nat} (hlength : pieces.length = 8)
    (h : chars pieces = [':', ':', '1']) : pieces = [0, 0, 0, 0, 0, 0, 0, 1] := by
  obtain ⟨first, rest, rfl⟩ : ∃ first rest, pieces = first :: rest :=
    List.exists_cons_of_length_pos (by omega)
  have hzeros := take_runs (first :: rest)
  unfold chars at h
  dsimp only at h
  split at h
  · generalize (runs (first :: rest)).foldl max 0 = longest at h
    cases hstart : (runs (first :: rest)).idxOf longest with
    | succ start =>
      rw [hstart, List.take_succ_cons, List.append_assoc] at h
      exact absurd h (rowChars_ne_colon _ _ _ _)
    | zero =>
      have hhead : (runs (first :: rest)).headD 0 = longest := by
        rw [runs, List.foldr_cons, List.idxOf_eq_zero_iff_head_eq (by simp)] at hstart
        exact hstart
      rw [hhead] at hzeros
      rw [hstart, Nat.zero_add] at h
      have htail : (first :: rest).drop longest = [1] :=
        rowChars_eq_one (List.cons.inj (List.cons.inj h).2).2
      have hpieces : first :: rest = List.replicate longest 0 ++ [1] := by
        rw [← hzeros, ← htail, List.take_append_drop]
      have hlongest : longest = 7 := by
        have hcount := congrArg List.length hpieces
        rw [hlength, List.length_append, List.length_replicate, List.length_singleton] at hcount
        omega
      rw [hpieces, hlongest]
      rfl
  · exact absurd ((List.append_nil _).trans h) (rowChars_ne_colon _ _ _ _)

end Ipv6

namespace Host

/-- The hosts that come of reading the ones of web addresses. -/
def Canonical : Host → Prop
  | domain name => name.toList.all isInName = true ∧ Ipv4.looksNumeric name.toList = false
  | ipv4 address => address < 2 ^ 32
  | ipv6 pieces => pieces.length = 8

/-- How a host comes of its text. -/
inductive ReadAs [Naming] (cs : List Char) : Host → Prop where
  | bracketed {pieces : List Nat} (h : Ipv6.parse? (cs.drop 1).dropLast = some pieces) :
      ReadAs cs (ipv6 pieces)
  | numeric {name : List Char} {address : Nat} (hname : Naming.toAscii (decode cs) = .ok name)
      (h : Ipv4.parse? name = some address) : ReadAs cs (ipv4 address)
  | named {name : List Char} (hname : Naming.toAscii (decode cs) = .ok name) (hne : name ≠ [])
      (hnumeric : Ipv4.looksNumeric name = false) : ReadAs cs (domain (String.ofList name))

theorem readAs_of_parse [Naming] {cs : List Char} {host : Host} (h : parse cs = .ok host) :
    ReadAs cs host := by
  unfold parse at h
  split at h
  · unfold Host.bracketed at h
    split at h
    · split at h
      next pieces hpieces =>
        cases h
        exact .bracketed hpieces
      · cases h
    · cases h
  · cases hname : Naming.toAscii (decode cs) with
    | error cause =>
      rw [hname] at h
      cases h
    | ok name =>
      rw [hname] at h
      change (if name = [] then Except.error UrlError.emptyHost else _) = _ at h
      split at h
      · cases h
      next hne =>
        split at h
        · split at h
          next address haddress =>
            cases h
            exact .numeric hname haddress
          · cases h
        next hnumeric =>
          cases h
          exact .named hname hne (Bool.not_eq_true _ ▸ hnumeric)

theorem parse_canonical [Naming] {cs : List Char} {host : Host} (h : parse cs = .ok host) :
    host.Canonical := by
  cases readAs_of_parse h with
  | bracketed hpieces => exact Ipv6.parse?_length hpieces
  | numeric hname haddress => exact Ipv4.parse?_lt haddress
  | named hname hne hnumeric =>
    unfold Canonical
    dsimp only
    rw [String.toList_ofList]
    exact ⟨Naming.isInName_of_toAscii hname, hnumeric⟩

end Host

theorem bind_eq_ok {ε α β : Type} {first : Except ε α} {next : α → Except ε β} {last : β}
    (h : first >>= next = .ok last) : ∃ found, first = .ok found ∧ next found = .ok last := by
  cases first with
  | error cause => cases h
  | ok found => exact ⟨found, rfl, h⟩

/-- Trimming at the end goes no further than a character that stays. -/
theorem trimEnd_append {drop : Char → Bool} {last : Char} (hlast : drop last = false)
    (before rest : List Char) :
    ((before ++ last :: rest).reverse.dropWhile drop).reverse =
      before ++ last :: (rest.reverse.dropWhile drop).reverse := by
  have hkept : [last].dropWhile drop = [last] := by simp [hlast]
  rw [List.reverse_append, List.reverse_cons, List.dropWhile_append, List.dropWhile_append, hkept]
  split <;> split <;> simp_all

theorem clean_https {text : String} {rest : List Char}
    (htext : text.toList = "https".toList ++ ':' :: rest) :
    ∃ kept, clean text = "https".toList ++ ':' :: kept := by
  have hstart : text.toList.dropWhile (fun c => decide (c.toNat ≤ 0x20)) = text.toList := by
    rw [htext]
    rfl
  unfold clean Text.trimBoth
  rw [hstart, htext, trimEnd_append (by decide), List.filter_append,
    List.filter_cons_of_pos (by decide)]
  exact ⟨_, rfl⟩

theorem ofScheme_web {scheme : String} (h : scheme = "http" ∨ scheme = "https") :
    ∃ defaultPort, Family.ofScheme scheme = .web defaultPort := by
  rcases h with rfl | rfl
  · exact ⟨80, rfl⟩
  · exact ⟨443, rfl⟩

theorem readPort_web {defaultPort : Nat} {cs rest : List Char} {port : Option Nat}
    (h : readPort (.web defaultPort) cs = .ok (port, rest)) :
    ∀ own ∈ port, own ≤ 65535 ∧ own ≠ defaultPort := by
  unfold readPort at h
  dsimp only at h
  split at h
  · cases h
  next hvalid =>
    split at h
    · cases h
      exact nofun
    next hown =>
      cases h
      intro own hmem
      cases hmem
      rw [not_or] at hvalid hown
      exact ⟨Nat.le_of_not_lt hvalid.1, fun hsame => hown.2 (hsame ▸ rfl)⟩

section Parse
variable [Naming] {scheme : String} {family : Family} {cs : List Char} {url : Url}

theorem readHost_web {port : Nat} {host : Option Host} (h : readHost (.web port) cs = .ok host) :
    ∃ own, host = some own ∧ Host.parse cs = .ok own := by
  unfold readHost at h
  dsimp only at h
  split at h
  · cases h
  · cases hparse : Host.parse cs with
    | error cause =>
      rw [hparse] at h
      cases h
    | ok own =>
      rw [hparse] at h
      cases h
      exact ⟨own, rfl, rfl⟩

/-- What an authority of a web address is made of. -/
def IsAuthority (defaultPort : Nat) (authority : Authority) : Prop :=
  ∃ info written own port, Host.parse written = .ok own ∧
    (∀ number ∈ port, number ≤ 65535 ∧ number ≠ defaultPort) ∧
    authority =
      { username := (readUserInfo info).1
        password := (readUserInfo info).2
        host := some own
        port := port }

theorem readAuthority_web {port : Nat} {authority : Authority} {rest : List Char}
    (h : readAuthority (.web port) cs = .ok (authority, rest)) : IsAuthority port authority := by
  unfold readAuthority at h
  dsimp only at h
  obtain ⟨host, hread, h⟩ := bind_eq_ok h
  obtain ⟨own, rfl, hown⟩ := readHost_web hread
  rw [if_neg (by simp)] at h
  split at h
  · obtain ⟨⟨found, behind⟩, hport, h⟩ := bind_eq_ok h
    cases h
    exact ⟨_, _, own, found, hown, readPort_web hport, rfl⟩
  · cases h
    exact ⟨_, _, own, none, hown, nofun, rfl⟩

theorem withAuthority_scheme (h : withAuthority scheme family cs = .ok url) :
    url.scheme = scheme := by
  unfold withAuthority at h
  dsimp only at h
  split at h
  · cases h
  · split at h
    · obtain ⟨found, _, h⟩ := bind_eq_ok h
      cases h
      rfl
    · obtain ⟨found, _, h⟩ := bind_eq_ok h
      cases h
      rfl

theorem withAuthority_web {port : Nat} (h : withAuthority scheme (.web port) cs = .ok url) :
    ∃ authority tail, IsAuthority port authority ∧
      url = assemble scheme (.web port) authority (readPath (.web port)) tail := by
  unfold withAuthority at h
  dsimp only at h
  split at h
  · cases h
  · obtain ⟨⟨authority, rest⟩, hread, h⟩ := bind_eq_ok h
    exact ⟨authority, _, readAuthority_web hread, (Except.ok.inj h).symm⟩

theorem readScheme_scheme (h : readScheme scheme cs = .ok url) : url.scheme = scheme := by
  unfold readScheme at h
  dsimp only at h
  split at h
  · exact withAuthority_scheme h
  · split at h
    · exact withAuthority_scheme h
    · cases h
      rfl
  · exact withAuthority_scheme h
  · cases h
    rfl
  · cases h
    rfl

theorem parse_web {text : String} {port : Nat} (h : parse text = .ok url)
    (hweb : Family.ofScheme url.scheme = .web port) :
    ∃ authority tail, IsAuthority port authority ∧
      url = assemble url.scheme (.web port) authority (readPath (.web port)) tail := by
  unfold parse at h
  split at h
  next scheme rest _ =>
    have hscheme := readScheme_scheme h
    unfold readScheme at h
    rw [← hscheme, hweb] at h
    exact withAuthority_web h
  · cases h

/-- What is read under a scheme of the web has a host. -/
theorem parse_web_host {text : String} {port : Nat} (h : parse text = .ok url)
    (hweb : Family.ofScheme url.scheme = .web port) :
    ∃ host, url.host = some host ∧ host.Canonical := by
  obtain ⟨authority, tail, ⟨_, _, own, _, hown, -, hauthority⟩, hurl⟩ := parse_web h hweb
  rw [hauthority] at hurl
  exact ⟨own, congrArg Url.host hurl, Host.parse_canonical hown⟩

theorem parse_https {text : String} {rest : List Char}
    (htext : text.toList = "https".toList ++ ':' :: rest) (h : parse text = .ok url) :
    url.scheme = "https" := by
  obtain ⟨kept, hclean⟩ := clean_https htext
  have hsplit : splitScheme (clean text) = some ("https", kept) := by
    rw [hclean]
    rfl
  unfold parse at h
  rw [hsplit] at h
  exact readScheme_scheme h

end Parse

end ScopedStore.Url
