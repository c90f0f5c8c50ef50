import ScopedStore.Proofs.Account.Connections
import ScopedStore.Proofs.Url.Texts

/-! Endpoints without a scheme. The scheme is chosen by the text of the host, and whether the endpoint
is local is decided by the host that is read. The two agree where the host is spelled as it is read,
up to case, and for names; an address in another spelling is local and encrypted all the same. -/
namespace ScopedStore.Account

theorem isLocalHost_toLower (cs : List Char) :
    isLocalHost (cs.map Char.toLower) = isLocalHost cs := by
  have hopening : (fun c => decide (c = '[')) ∘ Char.toLower = fun c => decide (c = '[') := by
    funext c
    simp [Url.toLower_eq_iff (d := '[') rfl]
  have hclosing : (fun c => decide (c = ']')) ∘ Char.toLower = fun c => decide (c = ']') := by
    funext c
    simp [Url.toLower_eq_iff (d := ']') rfl]
  have htwice : Char.toLower ∘ Char.toLower = Char.toLower := funext Url.toLower_toLower
  unfold isLocalHost
  dsimp only
  rw [List.dropWhile_map, hopening, ← List.map_reverse, List.dropWhile_map, hclosing,
    ← List.map_reverse, List.map_map, htwice]

section Written
variable {host port : List Char}

theorem bareHost_named (hne : host ≠ []) (h : ∀ c ∈ host, Url.isHostChar c = true ∧ c ≠ ':')
    (hport : Url.PortText port) : bareHost (host ++ port) = host := by
  unfold bareHost
  split
  next rest heq =>
    obtain ⟨first, behind, rfl⟩ := List.exists_cons_of_ne_nil hne
    have hfirst : first = '[' := (List.cons.inj heq).1
    exact absurd (h first List.mem_cons_self).1 (by simp [hfirst]; decide)
  · have hcolon : host.contains ':' = false := by
      simpa using fun hmem => (h ':' hmem).2 rfl
    rcases hport with rfl | ⟨digits, hdigits, rfl⟩
    · rw [List.append_nil, hcolon]
      rfl
    · have hall : ∀ c ∈ digits.reverse, (c != ':') = true := fun c hc =>
        Decimal.ne_of_isDigit
          (Decimal.isDigit_of_areDigits hdigits c (List.mem_reverse.mp hc)) rfl
      rw [if_pos (by simp), List.reverse_append, List.reverse_cons, List.append_assoc,
        List.dropWhile_append_of_pos hall]
      simp

theorem bareHost_bracketed {cs : List Char} (h : ∀ c ∈ cs, Url.isHostChar c = true) :
    bareHost ('[' :: cs ++ [']'] ++ port) = '[' :: cs := by
  have hall : ∀ c ∈ '[' :: cs, (c != ']') = true := by
    intro c hc
    rw [bne_iff_ne]
    rcases List.mem_cons.mp hc with rfl | hc
    · decide
    · exact Url.ne_of_isHostChar (h c hc) (by decide)
  change ('[' :: cs ++ [']'] ++ port).takeWhile (· != ']') = _
  rw [List.append_assoc, List.takeWhile_append_of_pos hall]
  simp

/-- The host of an endpoint is found in its text. -/
theorem isLocalHost_bareHost (hhost : Url.HostText host) (hport : Url.PortText port) :
    isLocalHost (bareHost (host ++ port)) = isLocalHost host := by
  cases hhost with
  | named hne h => rw [bareHost_named hne h hport]
  | @bracketed cs h =>
    have hinside : ∀ c ∈ cs, c ≠ '[' ∧ c ≠ ']' := fun c hc =>
      ⟨Url.ne_of_isHostChar (h c hc) (by decide), Url.ne_of_isHostChar (h c hc) (by decide)⟩
    have hopening : ∀ c ∈ ['['], c = '[' := List.forall_mem_singleton.mpr rfl
    have hclosing : ∀ c ∈ [']'], c = ']' := List.forall_mem_singleton.mpr rfl
    have hopen := isLocalHost_between hinside hopening (List.forall_mem_nil _)
    have hclosed := isLocalHost_between hinside hopening hclosing
    rw [List.append_nil] at hopen
    rw [bareHost_bracketed h]
    exact hopen.trans hclosed.symm

theorem namesScheme_of_forall {cs : List Char} (h : ∀ c ∈ cs, c ≠ '/') : namesScheme cs = false := by
  induction cs with
  | nil => rfl
  | cons c rest ih =>
    obtain ⟨hc, hrest⟩ := List.forall_mem_cons.mp h
    rw [namesScheme, ih hrest]
    rintro behind - rfl
    exact hrest '/' List.mem_cons_self rfl

end Written

section Read
variable [Url.Naming] {written : List Char} {own : Url.Host}

/-- What is read of a host that looks local is its own text in lower case. -/
theorem chars_of_local (hnaming : Url.Naming.Standard) (hwritten : Url.HostText written)
    (hread : Url.Host.parse written = .ok own) (hlocal : isLocalHost written = true) :
    own.chars = written.map Char.toLower := by
  cases hwritten with
  | named hne h =>
    have hbare : ∀ c ∈ written, c ≠ '[' ∧ c ≠ ']' := fun c hc =>
      ⟨Url.ne_of_isHostChar (h c hc).1 (by decide), Url.ne_of_isHostChar (h c hc).1 (by decide)⟩
    have hlower := isLocalHost_between hbare (List.forall_mem_nil _) (List.forall_mem_nil _)
    rw [List.nil_append, List.append_nil, hlocal, eq_comm, List.contains_iff_mem] at hlower
    have hspelled {text : String} (he : String.ofList (written.map Char.toLower) = text) :
        written.map Char.toLower = text.toList := by
      rw [← he, String.toList_ofList]
    have hplain {text : String} (htext : Url.isPlainName text.toList = true)
        (he : String.ofList (written.map Char.toLower) = text) :
        Url.isPlainName written = true := by
      rwa [← Url.isPlainName_toLower, hspelled he]
    have haddress (address : Nat) {text : String} (hlt : address < 2 ^ 32)
        (htext : text.toList = Url.Ipv4.chars address)
        (he : String.ofList (written.map Char.toLower) = text) :
        own.chars = written.map Char.toLower := by
      have hspelled := (hspelled he).trans htext
      have hnumeric := hplain (htext ▸ Url.Host.isPlainName_ipv4 address) he
      rw [Url.Host.parse_of_plain hnaming hnumeric hne, hspelled, Url.Ipv4.looksNumeric_chars,
        if_pos rfl, Url.Ipv4.parse?_chars hlt] at hread
      cases hread
      exact hspelled.symm
    simp only [localHosts, List.mem_cons, List.not_mem_nil, or_false] at hlower
    rcases hlower with he | he | he | he
    · rw [Url.Host.parse_of_plain hnaming (hplain (by decide) he) hne, hspelled he,
        if_neg (by decide)] at hread
      cases hread
      exact String.toList_ofList.trans (hspelled he).symm
    · exact haddress 0x7F000001 (by norm_num) (by cbv) he
    · exact haddress 0 (by norm_num) (by cbv) he
    · have hcolons := Url.eq_of_map_toLower rfl (hspelled he)
      subst hcolons
      exact absurd rfl (h ':' (by decide)).2
  | @bracketed cs h =>
    have hinside : ∀ c ∈ cs, c ≠ '[' ∧ c ≠ ']' := fun c hc =>
      ⟨Url.ne_of_isHostChar (h c hc) (by decide), Url.ne_of_isHostChar (h c hc) (by decide)⟩
    have hlower := isLocalHost_between hinside (List.forall_mem_singleton.mpr rfl)
      (List.forall_mem_singleton.mpr rfl)
    rw [List.singleton_append, ← List.cons_append, hlocal, eq_comm, List.contains_iff_mem] at hlower
    obtain ⟨pieces, hpieces, rfl⟩ := Url.Host.parse_bracketed hread
    have hcolon : ':' ∈ cs := by
      by_contra hnone
      have hno := Url.Ipv6.parse?_of_forall fun c hc hsame => hnone (hsame ▸ hc)
      rw [hno] at hpieces
      cases hpieces
    have hin {text : String} (he : String.ofList (cs.map Char.toLower) = text) :
        ':' ∈ text.toList := by
      rw [← he, String.toList_ofList]
      exact List.mem_map.mpr ⟨':', hcolon, rfl⟩
    simp only [localHosts, List.mem_cons, List.not_mem_nil, or_false] at hlower
    rcases hlower with he | he | he | he
    · exact absurd (hin he) (by decide)
    · exact absurd (hin he) (by decide)
    · exact absurd (hin he) (by decide)
    · have hsame : cs = "::1".toList := by
        apply Url.eq_of_map_toLower rfl
        rw [← he, String.toList_ofList]
      subst hsame
      have hone : Url.Ipv6.chars [0, 0, 0, 0, 0, 0, 0, 1] = "::1".toList := by cbv
      have hread : Url.Ipv6.parse? (Url.Ipv6.chars [0, 0, 0, 0, 0, 0, 0, 1]) = _ :=
        Url.Ipv6.parse?_chars rfl (by decide)
      rw [hone, hpieces] at hread
      rw [Option.some.inj hread]
      cbv

variable {config : Config} {url : Url} {port : List Char}

/-- What is read of an endpoint without a scheme. -/
theorem endpoint_bare (hwritten : Url.HostText written) (hport : Url.PortText port)
    (huri : (Text.trim config.uri).toList = written ++ port) (h : config.endpoint = .ok url) :
    url.scheme = (if isLocalHost written then "http" else "https") ∧
      ∃ own, Url.Host.parse written = .ok own ∧ url.host = some own := by
  have hbare : namesScheme (written ++ port) = false :=
    namesScheme_of_forall fun c hc => Url.ne_of_authority hwritten hport (by decide) hc
  have hread (scheme : String) (defaultPort : Nat) (hscheme : scheme = "http" ∨ scheme = "https")
      (hfamily : Url.Family.ofScheme scheme = .web defaultPort)
      (htext : (Config.urlText (Text.trim config.uri)).toList =
        scheme.toList ++ ':' :: '/' :: '/' :: (written ++ port)) :
      url.scheme = scheme ∧ ∃ own, Url.Host.parse written = .ok own ∧ url.host = some own := by
    have hparts : (Config.urlText (Text.trim config.uri)).toList = scheme.toList ++
        ':' :: '/' :: '/' :: (Url.infoText none ++ (written ++ port) ++ []) := by
      rw [List.append_nil]
      exact htext
    have hparse := (Config.endpoint_read h).1
    rw [Url.parse_of_parts hscheme hfamily hparts (List.forall_mem_nil _) hwritten hport nofun
      (List.forall_mem_nil _)] at hparse
    obtain ⟨own, hown, hparse⟩ := Url.bind_eq_ok hparse
    obtain ⟨found, -, hparse⟩ := Url.bind_eq_ok hparse
    cases hparse
    exact ⟨rfl, own, hown, rfl⟩
  unfold Config.urlText at hread
  rw [huri, hbare, if_neg Bool.false_ne_true, isLocalHost_bareHost hwritten hport] at hread
  cases hlooks : isLocalHost written with
  | true =>
    refine hread "http" 80 (.inl rfl) rfl ?_
    rw [hlooks, if_pos rfl, String.toList_append, huri]
    rfl
  | false =>
    refine hread "https" 443 (.inr rfl) rfl ?_
    rw [hlooks, if_neg Bool.false_ne_true, String.toList_append, huri]
    rfl

/-- An endpoint without a scheme gets the plain one just if it is local and its host is written as
it is read. With a name as host that is every local endpoint. -/
theorem bare_endpoint_scheme (hnaming : Url.Naming.Standard) (hwritten : Url.HostText written)
    (hport : Url.PortText port) (huri : (Text.trim config.uri).toList = written ++ port)
    (h : config.endpoint = .ok url) :
    (url.scheme = "http" ∨ url.scheme = "https") ∧
      (url.scheme = "http" ↔ config.isLocal = true ∧
        url.hostText = some (String.ofList (written.map Char.toLower))) ∧
      ∀ name, Url.isPlainName written = true → url.host = some (.domain name) →
        (url.scheme = "http" ↔ config.isLocal = true) := by
  obtain ⟨hscheme, own, hread, hhost⟩ := endpoint_bare hwritten hport huri h
  have hlocal : config.isLocal = isLocalHost own.chars := by
    unfold Config.isLocal Config.hasLocalHost
    rw [h]
    dsimp only
    rw [hhost]
    rfl
  have htext : url.hostText = some (String.ofList (written.map Char.toLower)) ↔
      own.chars = written.map Char.toLower := by
    unfold Url.hostText
    rw [hhost, Option.map_some, Option.some.injEq, Url.Host.text, String.ofList_inj]
  have hplain : url.scheme = "http" ↔ isLocalHost written = true := by
    cases hlooks : isLocalHost written with
    | true => simp [hscheme, hlooks]
    | false => simp [hscheme, hlooks]
  have hsame : url.scheme = "http" ↔ config.isLocal = true ∧ own.chars = written.map Char.toLower := by
    rw [hplain, hlocal]
    constructor
    · intro hlooks
      have hchars := chars_of_local hnaming hwritten hread hlooks
      exact ⟨by rwa [hchars, isLocalHost_toLower], hchars⟩
    · rintro ⟨hown, hchars⟩
      rwa [hchars, isLocalHost_toLower] at hown
  refine ⟨(Config.endpoint_eq_ok h).1, hsame.trans (and_congr_right' htext.symm), ?_⟩
  intro name hname hdomain
  have hchars : own.chars = written.map Char.toLower := by
    rw [Url.Host.parse_of_plain hnaming hname hwritten.ne_nil] at hread
    rw [hhost] at hdomain
    cases hdomain
    split at hread
    · split at hread <;> cases hread
    · cases hread
      exact String.toList_ofList
  exact hsame.trans (and_iff_left hchars)

end Read

/-- A name in mixed case and an address in another spelling than the one in which it is read. -/
theorem bare_endpoint_scheme_spelled :
    let named : Config := { uri := " LocalHost:50051 " }
    let numbered : Config := { uri := "[0::1]:80" }
    (named.isLocal = true ∧ ∃ url, named.endpoint = .ok url ∧
      (url.scheme = "http" ↔ named.isLocal = true)) ∧
    (numbered.isLocal = true ∧ ∃ url, numbered.endpoint = .ok url ∧
      url.hostText = some "[::1]" ∧ url.scheme ≠ "http") := by
  intro named numbered
  have hname : named.endpoint = .ok
      { scheme := "http", host := some (.domain "localhost"), port := some 50051,
        path := .segments [""] } := by
    decide +kernel
  have hnumber : numbered.endpoint = .ok
      { scheme := "https", host := some (.ipv6 [0, 0, 0, 0, 0, 0, 0, 1]), port := some 80,
        path := .segments [""] } := by
    decide +kernel
  have hport (digits : List Char) (h : Decimal.areDigits digits = true) :
      Url.PortText (':' :: digits) := .inr ⟨digits, h, rfl⟩
  have hword (cs : List Char) (hne : cs ≠ [])
      (h : cs.all (fun c => Url.isHostChar c && decide (c ≠ ':')) = true) : Url.HostText cs := by
    refine .named hne fun c hc => ?_
    simpa using List.all_eq_true.mp h c hc
  have hbracketed (cs : List Char) (h : cs.all Url.isHostChar = true) :
      Url.HostText ('[' :: cs ++ [']']) := .bracketed (List.all_eq_true.mp h)
  have hnameLocal : named.isLocal = true := by
    rw [Config.isLocal, hname]
    decide
  have hnumberLocal : numbered.isLocal = true := by
    rw [Config.isLocal, hnumber]
    cbv
  refine ⟨⟨hnameLocal, _, hname, ?_⟩, hnumberLocal, _, hnumber, by cbv, ?_⟩
  · obtain ⟨-, -, hdomain⟩ := bare_endpoint_scheme Url.asciiNames_standard
      (hword "LocalHost".toList (by decide) rfl) (hport "50051".toList rfl)
      (by decide +kernel) hname
    exact hdomain "localhost" (by decide) rfl
  · obtain ⟨-, hsame, -⟩ := bare_endpoint_scheme Url.asciiNames_standard
      (hbracketed "0::1".toList rfl) (hport "80".toList rfl)
      (by decide +kernel) hnumber
    intro hplain
    exact absurd (hsame.mp hplain).2 (by decide +kernel)

/-- An endpoint on the own machine that is encrypted, as its address is not spelled in full. -/
theorem local_endpoint_encrypted :
    let config : Config := { uri := "127.1:50051" }
    (Text.trim config.uri).toList = "127.1".toList ++ ':' :: "50051".toList ∧
      Url.Ipv4.parse? "127.1".toList = some 0x7F000001 ∧
      config.isLocal = true ∧ (config.endpoint.map (·.scheme)) = .ok "https" := by
  decide +kernel

end ScopedStore.Account
