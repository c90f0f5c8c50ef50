import ScopedStore.Proofs.Url.Paths

/-! Addresses of the web as they are read, and what their text reads as when its path or its end is
another one. -/
namespace ScopedStore.Url

/-- What is read of an address of the web: all of its parts are encoded, and none of them is the one
that goes without saying. -/
structure Settled [Naming] (defaultPort : Nat) (url : Url) : Prop where
  username : Encoded userInfoSet url.username.toList
  password : ∀ password ∈ url.password, password ≠ "" ∧ Encoded userInfoSet password.toList
  host : ∃ own, url.host = some own ∧ HostText own.chars ∧ Host.parse own.chars = .ok own
  port : ∀ port ∈ url.port, port ≤ 65535 ∧ port ≠ defaultPort
  path : ∃ segments, url.path = .segments segments ∧ segments ≠ [] ∧
    ∀ segment ∈ segments, Segment segment.toList
  query : ∀ query ∈ url.query, Encoded specialQuerySet query.toList
  fragment : ∀ fragment ∈ url.fragment, Encoded fragmentSet fragment.toList

theorem readUserInfo_encoded (cs : List Char) :
    Encoded userInfoSet (readUserInfo cs).1.toList ∧
      ∀ password ∈ (readUserInfo cs).2, password ≠ "" ∧ Encoded userInfoSet password.toList := by
  have hencoded (part : List Char) :
      Encoded userInfoSet (String.ofList (encode userInfoSet part)).toList :=
    encoded_text (by decide) part
  unfold readUserInfo
  dsimp only
  refine ⟨hencoded _, ?_⟩
  intro password hpassword
  split at hpassword
  · cases hpassword
  next hne =>
    cases hpassword
    refine ⟨?_, hencoded _⟩
    intro hempty
    have hnil := congrArg String.toList hempty
    rw [String.toList_ofList, String.toList_empty, encode_eq_nil_iff] at hnil
    exact hne hnil

theorem isHostChar_of_isInName {c : Char} (h : isInName c = true) : isHostChar c = true ∧ c ≠ ':' :=
  forall_inName (P := fun c => isHostChar c = true ∧ c ≠ ':') (by decide) h

theorem hostText_of_parse [Naming] {cs : List Char} {host : Host} (h : Host.parse cs = .ok host) :
    HostText host.chars := by
  cases Host.readAs_of_parse h with
  | bracketed hpieces =>
    have hall : (':' :: Ipv6.hexChars).all isHostChar = true := by decide
    refine .bracketed fun c hc => ?_
    exact List.all_eq_true.mp hall c (List.mem_cons.mpr (Ipv6.mem_chars hc))
  | @numeric name address hname haddress =>
    refine .named (Ipv4.chars_ne_nil address) fun c hc => ?_
    exact isHostChar_of_isInName (List.all_eq_true.mp (Host.all_isInName_ipv4 address) c hc)
  | @named name hname hne hnumeric =>
    have hchars : (Host.domain (String.ofList name)).chars = name := String.toList_ofList
    rw [hchars]
    exact .named hne fun c hc =>
      isHostChar_of_isInName (List.all_eq_true.mp (Naming.isInName_of_toAscii hname) c hc)

section Parse
variable [Naming] {scheme : String} {defaultPort : Nat} {url : Url}

/-- What is read of a web address is settled. -/
theorem parse_settled (hnaming : Naming.Standard) {text : String} (h : parse text = .ok url)
    (hweb : Family.ofScheme url.scheme = .web defaultPort) : url.Settled defaultPort := by
  obtain ⟨authority, tail, ⟨info, written, own, port, hown, hport, rfl⟩, hurl⟩ := parse_web h hweb
  have hinfo := readUserInfo_encoded info
  rw [hurl]
  refine ⟨hinfo.1, hinfo.2, ⟨own, rfl, hostText_of_parse hown, Host.parse_chars hnaming hown⟩, hport,
    readPath_web _, ?_, ?_⟩
  · intro query hmem
    obtain ⟨cs, -, rfl⟩ := Option.map_eq_some_iff.mp hmem
    exact encoded_text (by decide) cs
  · intro fragment hmem
    obtain ⟨cs, -, rfl⟩ := Option.map_eq_some_iff.mp hmem
    exact encoded_text (by decide) cs

end Parse

theorem mem_marked {mark c : Char} {part : Option String}
    (h : c ∈ part.elim [] fun own => mark :: own.toList) : c = mark ∨ ∃ own ∈ part, c ∈ own.toList := by
  cases part with
  | none => cases h
  | some own =>
    rcases List.mem_cons.mp h with hmark | hc
    · exact .inl hmark
    · exact .inr ⟨own, rfl, hc⟩

theorem isInfoChar_of_encoded {cs : List Char} (h : Encoded userInfoSet cs) :
    ∀ c ∈ cs, isInfoChar c = true := by
  intro c hc
  have hne {d : Char} (hd : d ∈ userInfoSet) : c ≠ d := h.ne_of_mem hd c hc
  simp [isInfoChar, h.visible (by decide) c hc, hne (d := '/') (by decide), hne (d := '\\') (by decide),
    hne (d := '?') (by decide), hne (d := '#') (by decide)]

/-- What stands before a host, without the at sign. -/
def userInfoText (username : String) (password : Option String) : List Char :=
  username.toList ++ password.elim [] fun password => ':' :: password.toList

theorem readUserInfo_text {username : String} {password : Option String}
    (husername : Encoded userInfoSet username.toList)
    (hpassword : ∀ own ∈ password, own ≠ "" ∧ Encoded userInfoSet own.toList) :
    readUserInfo (userInfoText username password) = (username, password) := by
  have hcolon : ∀ c ∈ username.toList, (c != ':') = true := fun c hc =>
    bne_iff_ne.mpr (husername.ne_of_mem (by decide) c hc)
  unfold readUserInfo userInfoText
  dsimp only
  rw [List.takeWhile_append_of_pos hcolon, List.dropWhile_append_of_pos hcolon]
  cases password with
  | none =>
    simp [husername.encode_eq]
  | some own =>
    obtain ⟨hne, hown⟩ := hpassword own rfl
    simp [husername.encode_eq, hown.encode_eq, hne]

theorem Settled.userInfo [Naming] {defaultPort : Nat} {url : Url} (h : url.Settled defaultPort) :
    ∃ info, url.userInfoChars = infoText info ∧ (∀ c ∈ info.getD [], isInfoChar c = true) ∧
      readUserInfo (info.getD []) = (url.username, url.password) := by
  have hread := readUserInfo_text h.username h.password
  have hchars : ∀ c ∈ userInfoText url.username url.password, isInfoChar c = true := by
    intro c hc
    rcases List.mem_append.mp hc with hc | hc
    · exact isInfoChar_of_encoded h.username c hc
    · rcases mem_marked hc with rfl | ⟨password, hpassword, hc⟩
      · decide
      · exact isInfoChar_of_encoded (h.password password hpassword).2 c hc
  unfold userInfoChars
  dsimp only
  change ∃ info, (if userInfoText url.username url.password = [] then [] else _) = _ ∧ _
  split
  next hnil =>
    rw [hnil] at hread
    exact ⟨none, rfl, List.forall_mem_nil _, hread⟩
  · exact ⟨some _, rfl, hchars, hread⟩

theorem readPortText_digits {defaultPort port : Nat} (hle : port ≤ 65535)
    (hne : port ≠ defaultPort) :
    readPortText (.web defaultPort) (':' :: Decimal.digits port) = .ok (some port, []) := by
  have hall := Decimal.isDigit_of_areDigits (Decimal.digits_areDigits port)
  have htake : (Decimal.digits port).takeWhile Char.isDigit = Decimal.digits port :=
    List.takeWhile_eq_self_iff.mpr hall
  have hdrop : (Decimal.digits port).dropWhile Char.isDigit = [] := List.dropWhile_eq_nil_iff.mpr hall
  change readPort (.web defaultPort) (Decimal.digits port) = _
  unfold readPort
  dsimp only
  rw [htake, hdrop, Decimal.value_digits]
  have hother : (Family.web defaultPort).defaultPort? ≠ some port := by
    intro hsame
    exact hne (Option.some.inj hsame).symm
  simp [Nat.not_lt.mpr hle, hother, Decimal.digits_ne_nil]

theorem splitTail_append {cs tail : List Char} (hcs : ∀ c ∈ cs, c ≠ '?' ∧ c ≠ '#')
    (htail : ∀ c ∈ tail.head?, c = '?' ∨ c = '#') :
    splitTail (cs ++ tail) = (cs, (splitTail tail).2) := by
  have hfragment : ∀ c ∈ cs, (c != '#') = true := fun c hc => bne_iff_ne.mpr (hcs c hc).2
  have hquery : ∀ c ∈ cs, (c != '?') = true := fun c hc => bne_iff_ne.mpr (hcs c hc).1
  have hend : (tail.takeWhile (· != '#')).takeWhile (· != '?') = [] := by
    cases tail with
    | nil => rfl
    | cons c rest =>
      rcases htail c rfl with rfl | rfl
      · rfl
      · rfl
  unfold splitTail
  dsimp only
  rw [List.takeWhile_append_of_pos hfragment, List.dropWhile_append_of_pos hfragment,
    List.takeWhile_append_of_pos hquery, List.dropWhile_append_of_pos hquery, hend, List.append_nil]

theorem path_plain {segments : List String} (h : ∀ segment ∈ segments, Segment segment.toList) :
    ∀ c ∈ (Path.segments segments).chars, 0x20 < c.toNat ∧ c ≠ '?' ∧ c ≠ '#' := by
  intro c hc
  obtain ⟨segment, hmem, hc⟩ := List.mem_flatMap.mp hc
  rcases List.mem_cons.mp hc with rfl | hc
  · decide
  · have hencoded := (h segment hmem).encoded
    exact ⟨hencoded.visible (by decide) c hc, hencoded.ne_of_mem (by decide) c hc,
      hencoded.ne_of_mem (by decide) c hc⟩

/-- What stands before the path. -/
def frontChars (url : Url) : List Char := url.scheme.toList ++ ':' :: url.authorityChars

/-- What stands behind the path. -/
def tailChars (url : Url) : List Char :=
  (url.query.elim [] fun query => '?' :: query.toList) ++
    url.fragment.elim [] fun fragment => '#' :: fragment.toList

theorem chars_parts (url : Url) :
    url.chars = url.frontChars ++ (url.path.chars ++ url.tailChars) := by
  unfold chars frontChars tailChars
  simp

theorem tail_head (url : Url) : ∀ c ∈ url.tailChars.head?, c = '?' ∨ c = '#' := by
  unfold tailChars
  cases url.query with
  | none =>
    cases url.fragment with
    | none => exact nofun
    | some fragment =>
      rintro c ⟨⟩
      exact .inr rfl
  | some query =>
    rintro c ⟨⟩
    exact .inl rfl

section Front
variable [Naming] {defaultPort : Nat} {url : Url}

theorem Settled.front (h : url.Settled defaultPort) :
    ∃ info host port own,
      url.frontChars = url.scheme.toList ++ ':' :: '/' :: '/' :: (infoText info ++ (host ++ port)) ∧
      (∀ c ∈ info.getD [], isInfoChar c = true) ∧
      readUserInfo (info.getD []) = (url.username, url.password) ∧ HostText host ∧ PortText port ∧
      Host.parse host = .ok own ∧ url.host = some own ∧
      readPortText (.web defaultPort) port = .ok (url.port, []) := by
  obtain ⟨info, hinfo, hchars, hread⟩ := h.userInfo
  obtain ⟨own, hhost, htext, hown⟩ := h.host
  have hport : PortText (url.port.elim [] fun port => ':' :: Decimal.digits port) ∧
      readPortText (.web defaultPort) (url.port.elim [] fun port => ':' :: Decimal.digits port) =
        .ok (url.port, []) := by
    cases hnumber : url.port with
    | none => exact ⟨.inl rfl, rfl⟩
    | some port =>
      obtain ⟨hle, hne⟩ := h.port port hnumber
      exact ⟨.inr ⟨_, Decimal.digits_areDigits port, rfl⟩, readPortText_digits hle hne⟩
  refine ⟨info, own.chars, _, own, ?_, hchars, hread, htext, hport.1, hown, hhost, hport.2⟩
  unfold frontChars authorityChars
  rw [hhost]
  dsimp only
  rw [hinfo]
  simp

/-- The address up to its path reads as it is, whatever path and tail follow. -/
theorem Settled.parse_front (h : url.Settled defaultPort)
    (hscheme : url.scheme = "http" ∨ url.scheme = "https")
    (hweb : Family.ofScheme url.scheme = .web defaultPort) {segments : List String}
    (hne : segments ≠ []) (hsegments : ∀ segment ∈ segments, Segment segment.toList)
    {tail : List Char} (htail : ∀ c ∈ tail.head?, c = '?' ∨ c = '#')
    (hvisible : ∀ c ∈ tail, 0x20 < c.toNat) {text : String}
    (htext : text.toList = url.frontChars ++ ((Path.segments segments).chars ++ tail)) :
    parse text = .ok { url with
      path := .segments segments
      query := (splitTail tail).2.1.map fun cs => String.ofList (encode specialQuerySet cs)
      fragment := (splitTail tail).2.2.map fun cs => String.ofList (encode fragmentSet cs) } := by
  obtain ⟨info, host, port, own, hfront, hinfo, hread, hhost, hport, hown, hsome, hnumber⟩ := h.front
  have hplain := path_plain hsegments
  have hparts : text.toList = url.scheme.toList ++ ':' :: '/' :: '/' ::
      (infoText info ++ (host ++ port) ++ ((Path.segments segments).chars ++ tail)) := by
    rw [htext, hfront]
    simp
  have hhead : ∀ c ∈ ((Path.segments segments).chars ++ tail).head?,
      (Family.web defaultPort).endsAuthority c = true := by
    obtain ⟨first, rest, rfl⟩ := List.exists_cons_of_ne_nil hne
    intro c hc
    have hslash : c = '/' := by simpa [Path.chars, eq_comm] using hc
    rw [hslash]
    rfl
  have hall : ∀ c ∈ (Path.segments segments).chars ++ tail, 0x20 < c.toNat := by
    intro c hc
    rcases List.mem_append.mp hc with hc | hc
    · exact (hplain c hc).1
    · exact hvisible c hc
  have hsplit := splitTail_append (fun c hc => (hplain c hc).2) htail
  rw [parse_of_parts hscheme hweb hparts hinfo hhost hport hhead hall, hown, hnumber, hread]
  unfold assemble
  dsimp only [bind, Except.bind, pure, Except.pure]
  rw [List.nil_append, hsplit]
  dsimp only
  rw [readPath_chars hne hsegments, ← hsome]
  rfl

theorem Settled.splitTail (h : url.Settled defaultPort) :
    Url.splitTail url.tailChars = ([], url.query.map String.toList, url.fragment.map String.toList) := by
  have hbehind : (url.fragment.elim [] fun fragment => '#' :: fragment.toList).takeWhile (· != '#') = [] ∧
      (url.fragment.elim [] fun fragment => '#' :: fragment.toList).dropWhile (· != '#') =
        url.fragment.elim [] fun fragment => '#' :: fragment.toList := by
    cases url.fragment with
    | none => exact ⟨rfl, rfl⟩
    | some fragment => exact ⟨rfl, rfl⟩
  unfold Url.splitTail tailChars
  dsimp only
  cases hquery : url.query with
  | none =>
    rw [Option.elim_none, List.nil_append, hbehind.1, hbehind.2]
    cases url.fragment with
    | none => rfl
    | some fragment => rfl
  | some query =>
    have hmarked : ∀ c ∈ '?' :: query.toList, (c != '#') = true := by
      refine List.forall_mem_cons.mpr ⟨rfl, fun c hc => bne_iff_ne.mpr ?_⟩
      exact (h.query query hquery).ne_of_mem (by decide) c hc
    rw [Option.elim_some, List.takeWhile_append_of_pos hmarked, List.dropWhile_append_of_pos hmarked,
      hbehind.1, hbehind.2, List.append_nil]
    cases url.fragment with
    | none => rfl
    | some fragment => rfl

theorem Settled.tail_visible (h : url.Settled defaultPort) : ∀ c ∈ url.tailChars, 0x20 < c.toNat := by
  intro c hc
  rcases List.mem_append.mp hc with hc | hc
  · rcases mem_marked hc with rfl | ⟨query, hquery, hc⟩
    · decide
    · exact (h.query query hquery).visible (by decide) c hc
  · rcases mem_marked hc with rfl | ⟨fragment, hfragment, hc⟩
    · decide
    · exact (h.fragment fragment hfragment).visible (by decide) c hc

theorem Settled.parse_text (h : url.Settled defaultPort)
    (hscheme : url.scheme = "http" ∨ url.scheme = "https")
    (hweb : Family.ofScheme url.scheme = .web defaultPort) : parse url.text = .ok url := by
  obtain ⟨segments, hpath, hne, hsegments⟩ := h.path
  have htext : url.text.toList = url.frontChars ++ ((Path.segments segments).chars ++ url.tailChars) := by
    rw [Url.text, String.toList_ofList, chars_parts, hpath]
  have hkept {set : EncodeSet} {part : Option String}
      (hpart : ∀ own ∈ part, Encoded set own.toList) :
      ((part.map String.toList).map fun cs => String.ofList (encode set cs)) = part := by
    cases part with
    | none => rfl
    | some own => simp [(hpart own rfl).encode_eq]
  rw [h.parse_front hscheme hweb hne hsegments url.tail_head h.tail_visible htext, h.splitTail,
    hkept h.query, hkept h.fragment, ← hpath]

/-- Reading the text of what was read changes nothing any more. -/
theorem parse_text (hnaming : Naming.Standard) {text : String} (h : parse text = .ok url)
    (hscheme : url.scheme = "http" ∨ url.scheme = "https") : parse url.text = .ok url := by
  obtain ⟨defaultPort, hweb⟩ := ofScheme_web hscheme
  exact (parse_settled hnaming h hweb).parse_text hscheme hweb

end Front

end ScopedStore.Url
