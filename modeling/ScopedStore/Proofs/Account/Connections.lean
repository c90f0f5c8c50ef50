import ScopedStore.Account.Config
import ScopedStore.Proofs.Url.Hosts

/-! Which endpoints are on the own machine, and the connections that are made to endpoints. Whether
an endpoint is local is decided by its host as it is read: of all hosts four are. -/
namespace ScopedStore.Account

/-- The hosts that stand for the own machine. -/
def ownHosts : List Url.Host :=
  [.domain "localhost", .ipv4 0x7F000001, .ipv4 0, .ipv6 [0, 0, 0, 0, 0, 0, 0, 1]]

/-- A character that neither brackets nor lower case make another of. -/
def isBare (c : Char) : Bool := c != '[' && c != ']' && c.toLower == c

theorem map_toLower_bare {cs : List Char} (h : ∀ c ∈ cs, isBare c = true) :
    cs.map Char.toLower = cs := by
  conv_rhs => rw [← List.map_id cs]
  refine List.map_congr_left fun c hc => ?_
  have hbare := h c hc
  simp only [isBare, Bool.and_eq_true, beq_iff_eq] at hbare
  exact hbare.2

/-- Brackets around a host do not count. -/
theorem isLocalHost_between {cs opening closing : List Char} (h : ∀ c ∈ cs, c ≠ '[' ∧ c ≠ ']')
    (hopening : ∀ c ∈ opening, c = '[') (hclosing : ∀ c ∈ closing, c = ']') :
    isLocalHost (opening ++ (cs ++ closing)) =
      localHosts.contains (String.ofList (cs.map Char.toLower)) := by
  have hopen : (opening ++ (cs ++ closing)).dropWhile (fun c => decide (c = '[')) =
      cs ++ closing := by
    rw [List.dropWhile_append_of_pos fun c hc => decide_eq_true (hopening c hc)]
    refine Url.dropWhile_of_forall fun c hc => decide_eq_false ?_
    rcases List.mem_append.mp hc with hc | hc
    · exact (h c hc).1
    · rw [hclosing c hc]
      decide
  have hclose : (cs ++ closing).reverse.dropWhile (fun c => decide (c = ']')) = cs.reverse := by
    rw [List.reverse_append, List.dropWhile_append_of_pos fun c hc =>
      decide_eq_true (hclosing c (List.mem_reverse.mp hc))]
    exact Url.dropWhile_of_forall fun c hc => decide_eq_false (h c (List.mem_reverse.mp hc)).2
  unfold isLocalHost
  dsimp only
  rw [hopen, hclose, List.reverse_reverse]

theorem isLocalHost_enclosed {cs opening closing : List Char} (h : ∀ c ∈ cs, isBare c = true)
    (hopening : ∀ c ∈ opening, c = '[') (hclosing : ∀ c ∈ closing, c = ']') :
    isLocalHost (opening ++ (cs ++ closing)) = localHosts.contains (String.ofList cs) := by
  have hbrackets : ∀ c ∈ cs, c ≠ '[' ∧ c ≠ ']' := by
    intro c hc
    have hbare := h c hc
    simp only [isBare, Bool.and_eq_true, bne_iff_ne] at hbare
    exact hbare.1
  rw [isLocalHost_between hbrackets hopening hclosing, map_toLower_bare h]

theorem isLocalHost_bare {cs : List Char} (h : ∀ c ∈ cs, isBare c = true) :
    isLocalHost cs = localHosts.contains (String.ofList cs) := by
  have hplain := isLocalHost_enclosed h (List.forall_mem_nil _) (List.forall_mem_nil _)
  rwa [List.nil_append, List.append_nil] at hplain

theorem isBare_of_isInName {c : Char} (h : Url.isInName c = true) : isBare c = true :=
  Url.forall_inName (P := fun c => isBare c = true) (by decide) h

theorem isBare_of_isDigit {c : Char} (h : c.isDigit = true) : isBare c = true :=
  Decimal.forall_digit (P := fun c => isBare c = true) (by decide) h

/-- A row of characters is no text that has one beside them. -/
theorem ofList_ne_of_mem {cs : List Char} {text : String} (c : Char) (hc : c ∈ text.toList)
    (hcs : c ∉ cs) : String.ofList cs ≠ text := by
  rintro rfl
  rw [String.toList_ofList] at hc
  exact hcs hc

section Hosts
variable {host : Url.Host}

theorem domain_local {name : String} (h : (Url.Host.domain name).Canonical)
    (hlocal : isLocalHost name.toList = true) : name = "localhost" := by
  obtain ⟨hname, hnumeric⟩ := h
  have hbare : ∀ c ∈ name.toList, isBare c = true := fun c hc =>
    isBare_of_isInName (List.all_eq_true.mp hname c hc)
  rw [isLocalHost_bare hbare, String.ofList_toList] at hlocal
  have hmem : name ∈ localHosts := List.contains_iff_mem.mp hlocal
  simp only [localHosts, List.mem_cons, List.not_mem_nil, or_false] at hmem
  rcases hmem with rfl | rfl | rfl | rfl
  · rfl
  · exact absurd hnumeric (by decide)
  · exact absurd hnumeric (by decide)
  · exact absurd hname (by decide)

theorem ipv4_local {address : Nat} (h : address < 2 ^ 32)
    (hlocal : isLocalHost (Url.Ipv4.chars address) = true) :
    address = 0x7F000001 ∨ address = 0 := by
  have hbare : ∀ c ∈ Url.Ipv4.chars address, isBare c = true := by
    intro c hc
    rcases Url.Ipv4.mem_chars hc with hdigit | rfl
    · exact isBare_of_isDigit hdigit
    · decide
  rw [isLocalHost_bare hbare] at hlocal
  have hmem := List.contains_iff_mem.mp hlocal
  have hsame {other : Nat} {text : String} (hother : other < 2 ^ 32)
      (htext : text.toList = Url.Ipv4.chars other)
      (he : String.ofList (Url.Ipv4.chars address) = text) : address = other := by
    rw [← he, String.toList_ofList] at htext
    exact Url.Ipv4.chars_inj h hother htext
  simp only [localHosts, List.mem_cons, List.not_mem_nil, or_false] at hmem
  rcases hmem with he | he | he | he
  · exact absurd he (ofList_ne_of_mem 'l' (by decide)
      (mt Url.Ipv4.mem_chars (by decide)))
  · exact .inl (hsame (by norm_num) (by cbv) he)
  · exact .inr (hsame (by norm_num) (by cbv) he)
  · exact absurd he (ofList_ne_of_mem ':' (by decide)
      (mt Url.Ipv4.mem_chars (by decide)))

theorem ipv6_local {pieces : List Nat} (h : pieces.length = 8)
    (hlocal : isLocalHost ('[' :: Url.Ipv6.chars pieces ++ [']']) = true) :
    pieces = [0, 0, 0, 0, 0, 0, 0, 1] := by
  have hhex : (':' :: Url.Ipv6.hexChars).all isBare = true := by decide
  have hbare : ∀ c ∈ Url.Ipv6.chars pieces, isBare c = true := fun c hc =>
    List.all_eq_true.mp hhex c (List.mem_cons.mpr (Url.Ipv6.mem_chars hc))
  rw [List.cons_append, ← List.singleton_append,
    isLocalHost_enclosed hbare (List.forall_mem_singleton.mpr rfl)
      (List.forall_mem_singleton.mpr rfl)] at hlocal
  have hmem := List.contains_iff_mem.mp hlocal
  simp only [localHosts, List.mem_cons, List.not_mem_nil, or_false] at hmem
  rcases hmem with he | he | he | he
  · exact absurd he (ofList_ne_of_mem 'l' (by decide) (mt Url.Ipv6.mem_chars (by decide)))
  · exact absurd he (ofList_ne_of_mem '.' (by decide) (mt Url.Ipv6.mem_chars (by decide)))
  · exact absurd he (ofList_ne_of_mem '.' (by decide) (mt Url.Ipv6.mem_chars (by decide)))
  · have hchars := congrArg String.toList he
    rw [String.toList_ofList] at hchars
    exact Url.Ipv6.chars_eq_one h hchars

/-- A host that is read is taken for local just if it stands for the own machine. -/
theorem isLocalHost_iff (h : host.Canonical) :
    isLocalHost host.chars = true ↔ host ∈ ownHosts := by
  constructor
  · intro hlocal
    cases host with
    | domain name =>
      rw [domain_local h hlocal]
      decide
    | ipv4 address =>
      rcases ipv4_local h hlocal with rfl | rfl <;> decide
    | ipv6 pieces =>
      rw [ipv6_local h hlocal]
      decide
  · intro hown
    simp only [ownHosts, List.mem_cons, List.not_mem_nil, or_false] at hown
    rcases hown with rfl | rfl | rfl | rfl
    · cbv
    · cbv
    · cbv
    · cbv

end Hosts

/-- The connection to an endpoint. -/
def Connection.towards (config : Config) (url : Url) : Connection where
  endpoint := trimSlashes url.text
  token := if Config.hasLocalHost url then none else config.token
  userAgent := config.userAgent
  timeoutMs := config.timeoutMs

section Connections
variable [Url.Naming] {config : Config} {connection : Connection} {url : Url}

theorem Config.endpoint_read (h : config.endpoint = .ok url) :
    Url.parse (urlText (Text.trim config.uri)) = .ok url ∧
      (url.scheme = "http" ∨ url.scheme = "https") := by
  unfold endpoint at h
  dsimp only at h
  split at h
  · cases h
  · split at h
    · cases h
    next parsed hparse =>
      split at h
      · cases h
      next hscheme =>
        split at h
        · cases h
        · cases h
          rw [not_and_or, not_not, not_not] at hscheme
          exact ⟨hparse, hscheme⟩

theorem Config.endpoint_eq_ok (h : config.endpoint = .ok url) :
    (url.scheme = "http" ∨ url.scheme = "https") ∧
      ∃ host, url.host = some host ∧ host.Canonical := by
  obtain ⟨hparse, hweb⟩ := endpoint_read h
  obtain ⟨defaultPort, hfamily⟩ := Url.ofScheme_web hweb
  exact ⟨hweb, Url.parse_web_host hparse hfamily⟩

theorem Config.validate_eq_ok_iff (h : config.endpoint = .ok url) :
    config.validate = .ok () ↔
      hasLocalHost url = true ∨ url.scheme = "https" ∧ config.lacksToken = false := by
  unfold validate
  rw [h]
  dsimp only [bind, Except.bind]
  by_cases hlocal : hasLocalHost url = true
  · rw [if_pos hlocal]
    exact iff_of_true rfl (.inl hlocal)
  · rw [if_neg hlocal]
    by_cases hscheme : url.scheme = "https"
    · rw [if_neg (not_not.mpr hscheme)]
      cases htoken : config.lacksToken with
      | false => exact iff_of_true rfl (.inr ⟨hscheme, rfl⟩)
      | true => exact iff_of_false nofun (by simp [hlocal])
    · rw [if_pos hscheme]
      exact iff_of_false nofun (by simp [hlocal, hscheme])

/-- A connection is made to an endpoint that is local, or else encrypted and with a token. -/
theorem Connection.ofConfig_eq_ok_iff :
    ofConfig config = .ok connection ↔ ∃ url, config.endpoint = .ok url ∧
      (Config.hasLocalHost url = true ∨ url.scheme = "https" ∧ config.lacksToken = false) ∧
      isHeaderValue config.userAgent = true ∧ connection = towards config url := by
  cases hurl : config.endpoint with
  | error cause =>
    have hinvalid : config.validate = .error cause := by
      unfold Config.validate
      rw [hurl]
      rfl
    unfold ofConfig
    rw [hinvalid]
    exact iff_of_false nofun fun ⟨url, h, _⟩ => nomatch h
  | ok url =>
    have hvalid := Config.validate_eq_ok_iff hurl
    have hlocal : config.isLocal = Config.hasLocalHost url := by
      unfold Config.isLocal
      rw [hurl]
    simp only [Except.ok.injEq, exists_eq_left', ← hvalid]
    unfold ofConfig towards
    rw [hurl, hlocal]
    cases config.validate with
    | error cause => exact iff_of_false nofun fun h => nomatch h.1
    | ok =>
      dsimp only [bind, Except.bind]
      cases isHeaderValue config.userAgent with
      | false => exact iff_of_false nofun fun h => nomatch h.2.1
      | true =>
        exact ⟨fun h => ⟨rfl, rfl, (Except.ok.inj h).symm⟩, fun h => h.2.2 ▸ rfl⟩

end Connections

end ScopedStore.Account
