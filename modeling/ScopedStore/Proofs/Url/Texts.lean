import ScopedStore.Proofs.Url.Names

/-! Web addresses as text: how it is taken apart into user, host, port and what follows them. -/
namespace ScopedStore.Url

/-- A character that ends no host. -/
def isHostChar (c : Char) : Bool :=
  decide (0x20 < c.toNat) && !(['/', '\\', '?', '#', '@', '[', ']'].contains c)

/-- Text that is a host wherever it stands before a port or the end of an authority. -/
inductive HostText : List Char → Prop where
  | named {cs : List Char} (hne : cs ≠ []) (h : ∀ c ∈ cs, isHostChar c = true ∧ c ≠ ':') : HostText cs
  | bracketed {cs : List Char} (h : ∀ c ∈ cs, isHostChar c = true) : HostText ('[' :: cs ++ [']'])

/-- A port with its colon, or nothing. -/
def PortText (cs : List Char) : Prop := cs = [] ∨ ∃ digits, Decimal.areDigits digits = true ∧ cs = ':' :: digits

theorem ne_of_isHostChar {c d : Char} (hc : isHostChar c = true) (hd : isHostChar d = false) : c ≠ d := by
  rintro rfl
  exact absurd (hc.symm.trans hd) (by decide)

theorem HostText.ne_nil {cs : List Char} (h : HostText cs) : cs ≠ [] := by
  cases h with
  | named hne _ => exact hne
  | bracketed => simp

section Authority
variable {host port : List Char}

theorem splitHost_named {cs rest : List Char} (h : ∀ c ∈ cs, isHostChar c = true ∧ c ≠ ':')
    (hrest : rest = [] ∨ rest.head? = some ':') : splitHost false (cs ++ rest) = (cs, rest) := by
  induction cs with
  | nil =>
    cases rest with
    | nil => rfl
    | cons c rest =>
      have hc : c = ':' := by simpa using hrest
      simp [splitHost, hc]
  | cons c cs ih =>
    obtain ⟨⟨hc, hcolon⟩, hcs⟩ := List.forall_mem_cons.mp h
    have hopening : c ≠ '[' := ne_of_isHostChar hc (by decide)
    have hclosing : c ≠ ']' := ne_of_isHostChar hc (by decide)
    simp [splitHost, hcolon, hopening, ih hcs]

theorem splitHost_inside {cs : List Char} (h : ∀ c ∈ cs, isHostChar c = true) (rest : List Char) :
    splitHost true (cs ++ ']' :: rest) =
      (cs ++ ']' :: (splitHost false rest).1, (splitHost false rest).2) := by
  induction cs with
  | nil => simp [splitHost]
  | cons c cs ih =>
    obtain ⟨hc, hcs⟩ := List.forall_mem_cons.mp h
    have hclosing : c ≠ ']' := ne_of_isHostChar hc (by decide)
    simp [splitHost, hclosing, ih hcs]

theorem PortText.head (h : PortText port) : port = [] ∨ port.head? = some ':' := by
  rcases h with rfl | ⟨digits, -, rfl⟩
  · exact .inl rfl
  · exact .inr rfl

theorem HostText.splitHost (hhost : HostText host) (hport : PortText port) :
    Url.splitHost false (host ++ port) = (host, port) := by
  cases hhost with
  | named _ h => exact splitHost_named h hport.head
  | bracketed h =>
    have hbehind := splitHost_named (List.forall_mem_nil _) hport.head
    rw [List.nil_append] at hbehind
    have hinside := splitHost_inside h port
    rw [hbehind] at hinside
    simp [Url.splitHost, hinside]

theorem splitUserInfo_none {cs : List Char} (h : '@' ∉ cs) : splitUserInfo cs = (none, cs) := by
  simp [splitUserInfo, h]

theorem splitUserInfo_some {cs : List Char} (h : '@' ∉ cs) (info : List Char) :
    splitUserInfo (info ++ '@' :: cs) = (some info, cs) := by
  have hkept : ((info ++ '@' :: cs).reverse.takeWhile (· != '@')).reverse = cs := by
    have hall : ∀ c ∈ cs.reverse, (c != '@') = true := fun c hc =>
      bne_iff_ne.mpr fun hsame => h (hsame ▸ List.mem_reverse.mp hc)
    rw [List.reverse_append, List.reverse_cons, List.append_assoc,
      List.takeWhile_append_of_pos hall]
    simp
  unfold splitUserInfo
  dsimp only
  rw [hkept, if_pos (by simp)]
  have hlength : (info ++ '@' :: cs).length - cs.length - 1 = info.length := by
    simp only [List.length_append, List.length_cons]
    omega
  rw [hlength, List.take_left]

/-- What stands before a host. -/
def infoText (info : Option (List Char)) : List Char := info.elim [] (· ++ ['@'])

/-- No character of a host and its port means anything outside of them. -/
theorem authority_chars (hhost : HostText host) (hport : PortText port) :
    ∀ c ∈ host ++ port, isHostChar c = true ∨ c = '[' ∨ c = ']' := by
  have hdigit {c : Char} (hc : c.isDigit = true) : isHostChar c = true :=
    Decimal.forall_digit (P := fun c => isHostChar c = true) (by decide) hc
  intro c hc
  rcases List.mem_append.mp hc with hc | hc
  · cases hhost with
    | named _ h => exact .inl (h c hc).1
    | bracketed h =>
      simp only [List.cons_append, List.mem_cons, List.mem_append, List.not_mem_nil, or_false] at hc
      rcases hc with rfl | hc | rfl
      · exact .inr (.inl rfl)
      · exact .inl (h c hc)
      · exact .inr (.inr rfl)
  · rcases hport with rfl | ⟨digits, hdigits, rfl⟩
    · cases hc
    · rcases List.mem_cons.mp hc with rfl | hc
      · exact .inl (by decide)
      · exact .inl (hdigit (Decimal.isDigit_of_areDigits hdigits c hc))

theorem ne_of_authority (hhost : HostText host) (hport : PortText port) {c d : Char}
    (hd : isHostChar d = false ∧ d ≠ '[' ∧ d ≠ ']') (hc : c ∈ host ++ port) : c ≠ d := by
  rcases authority_chars hhost hport c hc with hc | rfl | rfl
  · exact ne_of_isHostChar hc hd.1
  · exact hd.2.1.symm
  · exact hd.2.2.symm

def readPortText [Naming] (family : Family) (port : List Char) : Except UrlError (Option Nat × List Char) :=
  match port with
  | ':' :: digits => readPort family digits
  | rest => pure (none, rest)

theorem readAuthority_parts [Naming] {defaultPort : Nat} (info : Option (List Char))
    (hhost : HostText host) (hport : PortText port) :
    readAuthority (.web defaultPort) (infoText info ++ (host ++ port)) = (do
      let own ← Host.parse host
      let (number, rest) ← readPortText (.web defaultPort) port
      return ({ username := (readUserInfo (info.getD [])).1
                password := (readUserInfo (info.getD [])).2
                host := some own
                port := number }, rest)) := by
  have hat : '@' ∉ host ++ port := fun hmem =>
    ne_of_authority hhost hport (by decide) hmem rfl
  have hsplit : splitUserInfo (infoText info ++ (host ++ port)) = (info, host ++ port) := by
    cases info with
    | none => exact splitUserInfo_none hat
    | some info =>
      have hsome := splitUserInfo_some hat info
      rwa [List.append_cons] at hsome
  unfold readAuthority
  rw [hsplit]
  dsimp only
  rw [hhost.splitHost hport]
  unfold readHost
  dsimp only
  rw [if_neg hhost.ne_nil]
  cases Host.parse host with
  | error cause => rfl
  | ok own =>
    rcases hport with rfl | ⟨digits, -, rfl⟩
    · rfl
    · rfl

end Authority

theorem clean_of_visible {text : String} (h : ∀ c ∈ text.toList, 0x20 < c.toNat) :
    clean text = text.toList := by
  have hkept {cs : List Char} (hcs : ∀ c ∈ cs, 0x20 < c.toNat) :
      cs.dropWhile (fun c => decide (c.toNat ≤ 0x20)) = cs :=
    dropWhile_of_forall fun c hc => decide_eq_false (Nat.not_le.mpr (hcs c hc))
  unfold clean Text.trimBoth
  rw [hkept h, hkept fun c hc => h c (List.mem_reverse.mp hc), List.reverse_reverse,
    List.filter_eq_self]
  intro c hc
  have hvisible := h c hc
  have hne {d : Char} (hd : d.toNat ≤ 0x20) : c ≠ d := by
    rintro rfl
    omega
  simp [hne (d := '\t') (by decide), hne (d := '\n') (by decide), hne (d := '\r') (by decide)]

theorem splitScheme_web {scheme : String} (hscheme : scheme = "http" ∨ scheme = "https")
    (rest : List Char) : splitScheme (scheme.toList ++ ':' :: rest) = some (scheme, rest) := by
  rcases hscheme with rfl | rfl <;> rfl

/-- A character that stands in front of an authority, before the at sign. -/
def isInfoChar (c : Char) : Bool := decide (0x20 < c.toNat) && !(['/', '\\', '?', '#'].contains c)

theorem endsAuthority_of_isInfoChar {defaultPort : Nat} {c : Char} (h : isInfoChar c = true) :
    (Family.web defaultPort).endsAuthority c = false := by
  simp only [isInfoChar, Bool.and_eq_true, Bool.not_eq_true', List.contains_eq_mem,
    decide_eq_false_iff_not, List.mem_cons, List.not_mem_nil, or_false, not_or] at h
  obtain ⟨-, hslash, hback, hquery, hfragment⟩ := h
  simp [Family.endsAuthority, Family.isSlash, hslash, hback, hquery, hfragment]

theorem isInfoChar_of_authority {host port : List Char} (hhost : HostText host) (hport : PortText port) :
    ∀ c ∈ host ++ port, isInfoChar c = true := by
  intro c hc
  rcases authority_chars hhost hport c hc with hc | rfl | rfl
  · simp only [isHostChar, Bool.and_eq_true, decide_eq_true_eq, Bool.not_eq_true',
      List.contains_eq_mem, decide_eq_false_iff_not, List.mem_cons, List.not_mem_nil, or_false, not_or] at hc
    simp [isInfoChar, hc]
  · decide
  · decide

section Web
variable [Naming] {scheme : String} {defaultPort : Nat}

theorem parse_of_web (hscheme : scheme = "http" ∨ scheme = "https")
    (hfamily : Family.ofScheme scheme = .web defaultPort) {text : String} {cs : List Char}
    (htext : text.toList = scheme.toList ++ ':' :: '/' :: '/' :: cs)
    (hvisible : ∀ c ∈ cs, 0x20 < c.toNat)
    (hhead : ∀ c ∈ cs.head?, (Family.web defaultPort).isSlash c = false) :
    parse text = withAuthority scheme (.web defaultPort) cs := by
  have hall : ∀ c ∈ text.toList, 0x20 < c.toNat := by
    have hmarks : (scheme.toList ++ [':'] ++ ['/'] ++ ['/']).all (0x20 < ·.toNat) = true := by
      rcases hscheme with rfl | rfl <;> rfl
    intro c hc
    rw [htext, List.append_cons, List.append_cons, List.append_cons, List.mem_append] at hc
    rcases hc with hc | hc
    · exact of_decide_eq_true (List.all_eq_true.mp hmarks c hc)
    · exact hvisible c hc
  have hslashes : ('/' :: '/' :: cs).dropWhile (Family.web defaultPort).isSlash = cs := by
    have hslash : (Family.web defaultPort).isSlash '/' = true := rfl
    rw [List.dropWhile_cons_of_pos hslash, List.dropWhile_cons_of_pos hslash]
    cases cs with
    | nil => rfl
    | cons c rest => exact List.dropWhile_cons_of_neg (by simp [hhead c rfl])
  unfold parse
  rw [clean_of_visible hall, htext, splitScheme_web hscheme]
  dsimp only
  unfold readScheme
  rw [hfamily]
  dsimp only
  rw [hslashes]

theorem withAuthority_front {front tail : List Char}
    (hfront : ∀ c ∈ front, (Family.web defaultPort).endsAuthority c = false)
    (htail : ∀ c ∈ tail.head?, (Family.web defaultPort).endsAuthority c = true)
    (hat : front ≠ ['@']) :
    withAuthority scheme (.web defaultPort) (front ++ tail) = (do
      let (authority, rest) ← readAuthority (.web defaultPort) front
      return assemble scheme (.web defaultPort) authority (readPath (.web defaultPort))
        (rest ++ tail)) := by
  have hall : ∀ c ∈ front, (!(Family.web defaultPort).endsAuthority c) = true := fun c hc => by
    rw [hfront c hc]
    rfl
  have hstop : tail.takeWhile (fun c => !(Family.web defaultPort).endsAuthority c) = [] ∧
      tail.dropWhile (fun c => !(Family.web defaultPort).endsAuthority c) = tail := by
    cases tail with
    | nil => exact ⟨rfl, rfl⟩
    | cons c rest => simp [htail c rfl]
  unfold withAuthority
  dsimp only
  rw [List.takeWhile_append_of_pos hall, List.dropWhile_append_of_pos hall, hstop.1, hstop.2,
    List.append_nil, if_neg fun h => hat h.1]

/-- What is read of a text that has a user, a host and a port before its tail. -/
theorem parse_of_parts (hscheme : scheme = "http" ∨ scheme = "https")
    (hfamily : Family.ofScheme scheme = .web defaultPort) {text : String}
    {info : Option (List Char)} {host port tail : List Char}
    (htext : text.toList =
      scheme.toList ++ ':' :: '/' :: '/' :: (infoText info ++ (host ++ port) ++ tail))
    (hinfo : ∀ c ∈ info.getD [], isInfoChar c = true) (hhost : HostText host) (hport : PortText port)
    (htail : ∀ c ∈ tail.head?, (Family.web defaultPort).endsAuthority c = true)
    (hvisible : ∀ c ∈ tail, 0x20 < c.toNat) :
    parse text = (do
      let own ← Host.parse host
      let (number, rest) ← readPortText (.web defaultPort) port
      return assemble scheme (.web defaultPort)
        { username := (readUserInfo (info.getD [])).1
          password := (readUserInfo (info.getD [])).2
          host := some own
          port := number } (readPath (.web defaultPort)) (rest ++ tail)) := by
  have hfront : ∀ c ∈ infoText info ++ (host ++ port), isInfoChar c = true := by
    intro c hc
    rcases List.mem_append.mp hc with hc | hc
    · cases info with
      | none => cases hc
      | some info =>
        rcases List.mem_append.mp hc with hc | hc
        · exact hinfo c hc
        · rw [List.mem_singleton.mp hc]
          decide
    · exact isInfoChar_of_authority hhost hport c hc
  have hne : infoText info ++ (host ++ port) ≠ [] := by simp [hhost.ne_nil]
  have hat : infoText info ++ (host ++ port) ≠ ['@'] := by
    intro hsame
    cases info with
    | none =>
      have hmem : '@' ∈ host ++ port := by
        rw [infoText, Option.elim_none, List.nil_append] at hsame
        rw [hsame]
        exact List.mem_singleton_self '@'
      exact ne_of_authority hhost hport (by decide) hmem rfl
    | some info =>
      have hlength := congrArg List.length hsame
      have hhostLength := List.length_pos_iff.mpr hhost.ne_nil
      simp only [infoText, Option.elim_some, List.length_append, List.length_singleton] at hlength
      omega
  have hall : ∀ c ∈ infoText info ++ (host ++ port) ++ tail, 0x20 < c.toNat := by
    intro c hc
    rcases List.mem_append.mp hc with hc | hc
    · have hinfo := hfront c hc
      simp only [isInfoChar, Bool.and_eq_true, decide_eq_true_eq] at hinfo
      exact hinfo.1
    · exact hvisible c hc
  have hhead : ∀ c ∈ (infoText info ++ (host ++ port) ++ tail).head?,
      (Family.web defaultPort).isSlash c = false := by
    intro c hc
    obtain ⟨first, rest, hcons⟩ := List.exists_cons_of_ne_nil hne
    rw [hcons, List.cons_append, List.head?_cons, Option.mem_some] at hc
    subst hc
    have hends : (Family.web defaultPort).endsAuthority first = false :=
      endsAuthority_of_isInfoChar (hfront first (hcons ▸ List.mem_cons_self))
    simp only [Family.endsAuthority, Bool.or_eq_false_iff] at hends
    exact hends.1.1
  rw [parse_of_web hscheme hfamily htext hall hhead,
    withAuthority_front (fun c hc => endsAuthority_of_isInfoChar (hfront c hc)) htail hat,
    readAuthority_parts info hhost hport]
  cases Host.parse host with
  | error cause => rfl
  | ok own =>
    dsimp only [bind, Except.bind, pure, Except.pure]
    cases readPortText (.web defaultPort) port with
    | error cause => rfl
    | ok found => rfl

end Web

end ScopedStore.Url
