import ScopedStore.Proofs.Url.Addresses
import ScopedStore.Proofs.Text.Utf8

/-! Names in ASCII, and the texts of hosts, which read back as the hosts. Of the tables for names only
what the standard says is used, which the names in ASCII alone follow. -/
namespace ScopedStore.Url

theorem forall_letter {P : Char → Prop}
    (h : ∀ n < 0x80, (Char.ofNat n).isAlpha = true → P (Char.ofNat n)) {c : Char}
    (hc : c.isAlpha = true) : P c := by
  have hlt : c.toNat < 0x80 := by
    have hcase := hc
    simp only [Char.isAlpha, Char.isUpper, Char.isLower, Bool.or_eq_true, Bool.and_eq_true,
      decide_eq_true_eq] at hcase
    rcases hcase with hcase | hcase
    · exact Nat.lt_of_le_of_lt hcase.2 (by decide)
    · exact Nat.lt_of_le_of_lt hcase.2 (by decide)
  exact Text.forall_ascii (P := fun c => c.isAlpha = true → P c) h hlt hc

theorem isAlpha_of_isUpper {c : Char} (h : c.isUpper = true) : c.isAlpha = true := by
  rw [Char.isAlpha, h, Bool.true_or]

theorem toLower_of_not_isUpper {c : Char} (h : c.isUpper = false) : c.toLower = c := by
  have hrange : ¬ (c.val ≥ 'A'.val ∧ c.val ≤ 'Z'.val) := by simpa [Char.isUpper] using h
  exact dif_neg hrange

theorem toLower_toLower (c : Char) : c.toLower.toLower = c.toLower := by
  cases hupper : c.isUpper with
  | false => rw [toLower_of_not_isUpper hupper, toLower_of_not_isUpper hupper]
  | true =>
    exact forall_letter (P := fun c => c.toLower.toLower = c.toLower) (by decide)
      (isAlpha_of_isUpper hupper)

theorem toLower_eq_iff {c d : Char} (hd : d.isAlpha = false) : c.toLower = d ↔ c = d := by
  cases hupper : c.isUpper with
  | false => rw [toLower_of_not_isUpper hupper]
  | true =>
    have hc := isAlpha_of_isUpper hupper
    have hlower := forall_letter (P := fun c => c.toLower.isAlpha = true) (by decide) hc
    constructor
    · rintro rfl
      exact absurd (hlower.symm.trans hd) (by decide)
    · rintro rfl
      exact absurd (hc.symm.trans hd) (by decide)

theorem isForbiddenInName_toLower (c : Char) :
    isForbiddenInName c.toLower = isForbiddenInName c := by
  cases hupper : c.isUpper with
  | false => rw [toLower_of_not_isUpper hupper]
  | true =>
    exact forall_letter (P := fun c => isForbiddenInName c.toLower = isForbiddenInName c)
      (by decide) (isAlpha_of_isUpper hupper)

theorem eq_of_map_toLower {cs ds : List Char} (hds : ds.any Char.isAlpha = false)
    (h : cs.map Char.toLower = ds) : cs = ds := by
  induction cs generalizing ds with
  | nil => exact h
  | cons c rest ih =>
    subst h
    rw [List.map_cons, List.any_cons, Bool.or_eq_false_iff] at hds
    have hc : c = c.toLower := (toLower_eq_iff hds.1).mp rfl
    rw [List.map_cons, ← hc, ← ih hds.2 rfl]

/-- A name in ASCII, none of whose labels stands for one beyond it. -/
def isPlainName (name : List Char) : Bool :=
  !name.any isForbiddenInName &&
    (splitOn '.' (name.map Char.toLower)).all fun label => !"xn--".toList.isPrefixOf label

/-- What holds of the tables for names: plain names only become lower case, and a name that came
out of them is brought to ASCII already. -/
structure Naming.Standard [Naming] : Prop where
  toAscii_plain {name : List Char} (h : isPlainName name = true) :
    Naming.toAscii (Text.toBytes (String.ofList name)) = .ok (name.map Char.toLower)
  toAscii_again {bytes : Text.Bytes} {name : List Char} (h : Naming.toAscii bytes = .ok name) :
    Naming.toAscii (Text.toBytes (String.ofList name)) = .ok name

theorem isPlainName_toLower (cs : List Char) :
    isPlainName (cs.map Char.toLower) = isPlainName cs := by
  have hforbidden : isForbiddenInName ∘ Char.toLower = isForbiddenInName :=
    funext isForbiddenInName_toLower
  have htwice : Char.toLower ∘ Char.toLower = Char.toLower := funext toLower_toLower
  unfold isPlainName
  rw [List.any_map, hforbidden, List.map_map, htwice]

theorem ofBytes?_toBytes (text : String) : Text.ofBytes? (Text.toBytes text) = some text := by
  have hall (cs : List Char) : (cs.map some).mapM id = some cs := by
    induction cs with
    | nil => rfl
    | cons c rest ih =>
      rw [List.map_cons, List.mapM_cons, ih]
      rfl
  rw [Text.ofBytes?, Text.decodeBytes_toBytes, hall, Option.map_some, String.ofList_toList]

theorem asciiName_toBytes {name : List Char} (h : name.any isForbiddenInName = false) :
    asciiName (Text.toBytes (String.ofList name)) = .ok (name.map Char.toLower) := by
  rw [asciiName, ofBytes?_toBytes]
  dsimp only
  rw [String.toList_ofList, if_neg (by simp [h])]

theorem toLower_of_isInName {c : Char} (h : isInName c = true) : c.toLower = c :=
  forall_inName (P := fun c => c.toLower = c) (by decide) h

theorem isInName_of_isDigit {c : Char} (h : c.isDigit = true) : isInName c = true :=
  Decimal.forall_digit (P := fun c => isInName c = true) (by decide) h

theorem map_toLower_name {name : List Char} (h : name.all isInName = true) :
    name.map Char.toLower = name := by
  conv_rhs => rw [← List.map_id name]
  exact List.map_congr_left fun c hc => toLower_of_isInName (List.all_eq_true.mp h c hc)

theorem allowed_of_name {name : List Char} (h : name.all isInName = true) :
    name.any isForbiddenInName = false := by
  rw [List.any_eq_false]
  intro c hc
  have hin := List.all_eq_true.mp h c hc
  simp only [isInName, Bool.and_eq_true, Bool.not_eq_true'] at hin
  simp [hin.1]

/-- Names in ASCII alone are brought to it as the standard says. -/
theorem asciiNames_standard : Naming.Standard where
  toAscii_plain h := by
    simp only [isPlainName, Bool.and_eq_true, Bool.not_eq_true'] at h
    exact asciiName_toBytes h.1
  toAscii_again h := by
    have hname := Naming.isInName_of_toAscii h
    have hread := asciiName_toBytes (allowed_of_name hname)
    rw [map_toLower_name hname] at hread
    exact hread

theorem decode_of_forall {cs : List Char} (h : ∀ c ∈ cs, c ≠ '%') :
    decode cs = Text.toBytes (String.ofList cs) := by
  rw [Text.toBytes_eq, String.toList_ofList]
  induction cs with
  | nil => rfl
  | cons c rest ih =>
    obtain ⟨hc, hrest⟩ := List.forall_mem_cons.mp h
    rw [decode, ih hrest, Text.toBytes_singleton, List.flatMap_cons]
    rintro high low other rfl
    exact absurd rfl hc

namespace Host

theorem parse_bracketed [Naming] {cs : List Char} {own : Host} (h : parse ('[' :: cs ++ [']']) = .ok own) :
    ∃ pieces, Ipv6.parse? cs = some pieces ∧ own = .ipv6 pieces := by
  change bracketed (cs ++ [']']) = .ok own at h
  unfold bracketed at h
  rw [if_pos List.getLast?_concat, List.dropLast_concat] at h
  split at h
  next pieces hpieces =>
    cases h
    exact ⟨pieces, hpieces, rfl⟩
  · cases h

/-- What is read of a name in which nothing is encoded. -/
theorem parse_of_toAscii [Naming] {cs name : List Char} (hplain : ∀ c ∈ cs, c ≠ '%' ∧ c ≠ '[')
    (hname : Naming.toAscii (Text.toBytes (String.ofList cs)) = .ok name) (hne : name ≠ []) :
    parse cs =
      if Ipv4.looksNumeric name then
        match Ipv4.parse? name with
        | some address => .ok (ipv4 address)
        | none => .error .invalidIpv4
      else .ok (domain (String.ofList name)) := by
  unfold parse
  split
  next rest => exact absurd rfl (hplain '[' List.mem_cons_self).2
  · rw [decode_of_forall fun c hc => (hplain c hc).1, hname]
    exact if_neg hne

theorem plain_of_allowed {cs : List Char} (h : cs.any isForbiddenInName = false) :
    ∀ c ∈ cs, c ≠ '%' ∧ c ≠ '[' := by
  intro c hc
  have hallowed := List.any_eq_false.mp h c hc
  constructor <;> rintro rfl <;> exact hallowed rfl

/-- A plain name is read in lower case. -/
theorem parse_of_plain [Naming] (hnaming : Naming.Standard) {cs : List Char}
    (hplain : isPlainName cs = true) (hne : cs ≠ []) :
    parse cs =
      if Ipv4.looksNumeric (cs.map Char.toLower) then
        match Ipv4.parse? (cs.map Char.toLower) with
        | some address => .ok (ipv4 address)
        | none => .error .invalidIpv4
      else .ok (domain (String.ofList (cs.map Char.toLower))) := by
  have hallowed : cs.any isForbiddenInName = false := by
    simp only [isPlainName, Bool.and_eq_true, Bool.not_eq_true'] at hplain
    exact hplain.1
  exact parse_of_toAscii (plain_of_allowed hallowed) (hnaming.toAscii_plain hplain) (by simpa using hne)

theorem all_isInName_ipv4 (address : Nat) : (Ipv4.chars address).all isInName = true := by
  rw [List.all_eq_true]
  intro c hc
  rcases Ipv4.mem_chars hc with hdigit | rfl
  · exact isInName_of_isDigit hdigit
  · decide

theorem isPlainName_ipv4 (address : Nat) : isPlainName (Ipv4.chars address) = true := by
  have hname := all_isInName_ipv4 address
  have hlabel (n : Nat) : "xn--".toList.isPrefixOf (Decimal.digits n) = false := by
    cases hdigits : Decimal.digits n with
    | nil => rfl
    | cons c rest =>
      have hc : c.isDigit = true := Decimal.isDigit_of_areDigits (Decimal.digits_areDigits n) c
        (hdigits ▸ List.mem_cons_self)
      have hne := Decimal.ne_of_isDigit hc (d := 'x') rfl
      simp only [bne_iff_ne] at hne
      simp [List.isPrefixOf, hne.symm]
  rw [isPlainName, allowed_of_name hname, map_toLower_name hname, Ipv4.splitOn_chars]
  simp only [List.all_cons, hlabel]
  rfl

/-- The text of a host that was read reads as the same host. -/
theorem parse_chars [Naming] (hnaming : Naming.Standard) {cs : List Char} {host : Host}
    (h : parse cs = .ok host) : parse host.chars = .ok host := by
  have hcanonical := parse_canonical h
  cases readAs_of_parse h with
  | @bracketed pieces hpieces =>
    have hread := Ipv6.parse?_chars hcanonical (Ipv6.parse?_lt hpieces)
    change Host.bracketed (Ipv6.chars pieces ++ [']']) = _
    unfold Host.bracketed
    rw [if_pos List.getLast?_concat, List.dropLast_concat, hread]
  | @numeric name address hname haddress =>
    have hread : parse (Ipv4.chars address) = _ :=
      parse_of_plain hnaming (isPlainName_ipv4 address) (Ipv4.chars_ne_nil address)
    rw [map_toLower_name (all_isInName_ipv4 address), Ipv4.looksNumeric_chars, if_pos rfl,
      Ipv4.parse?_chars hcanonical] at hread
    exact hread
  | @named name hname hne hnumeric =>
    have hallowed := allowed_of_name (Naming.isInName_of_toAscii hname)
    have hread := parse_of_toAscii (plain_of_allowed hallowed) (hnaming.toAscii_again hname) hne
    rw [hnumeric, if_neg Bool.false_ne_true] at hread
    have hchars : (domain (String.ofList name)).chars = name := String.toList_ofList
    rwa [hchars]

end Host
end ScopedStore.Url
