import ScopedStore.Proofs.Account.Connections
import ScopedStore.Proofs.Url.ReadBack

/-! Where requests go. The text of an endpoint loses the slashes at its end and the service and the
method follow. Of an endpoint that ends with its path the service comes behind that path; behind a
query or a fragment it becomes part of these, and the path stays the one of the endpoint. -/
namespace ScopedStore.Account

namespace Connection

/-- The path of a method below the path of an endpoint. -/
def methodPath (path : Url.Path) (method : String) : List Char :=
  path.chars.rdropWhile (· = '/') ++ '/' :: servicePath.toList ++ '/' :: method.toList

theorem toList_trimSlashes (text : String) :
    (trimSlashes text).toList = text.toList.rdropWhile (· = '/') := String.toList_ofList

/-- Dropping slashes goes no further than a character that is none. -/
theorem rdropWhile_slash {last : Char} (hlast : last ≠ '/') (before rest : List Char) :
    (before ++ last :: rest).rdropWhile (· = '/') = before ++ last :: rest.rdropWhile (· = '/') :=
  Url.trimEnd_append (decide_eq_false hlast) before rest

/-- Nothing but slashes is dropped, so that no path ends with a service by itself. -/
theorem methodPath_ne (path : Url.Path) (method : String) : path.chars ≠ methodPath path method := by
  intro hsame
  have hsplit : path.chars.rdropWhile (· = '/') ++ path.chars.rtakeWhile (· = '/') = path.chars :=
    List.rdropWhile_append_rtakeWhile
  have hdropped : path.chars.rtakeWhile (· = '/') =
      '/' :: servicePath.toList ++ '/' :: method.toList := by
    have hboth := hsplit.trans hsame
    rw [methodPath, List.append_assoc] at hboth
    exact List.append_cancel_left hboth
  have hletter : 'd' ∈ path.chars.rtakeWhile (· = '/') := by
    rw [hdropped]
    exact List.mem_append_left _ (by decide)
  exact absurd (List.mem_rtakeWhile_imp hletter) (by decide)

theorem path_chars_append (before behind : List String) :
    (Url.Path.segments (before ++ behind)).chars =
      (Url.Path.segments before).chars ++ (Url.Path.segments behind).chars := List.flatMap_append

/-- The slashes at the end of a path are those of its last segments that are empty. -/
theorem rdropWhile_path {segments : List String}
    (h : ∀ segment ∈ segments, Url.Segment segment.toList) :
    (Url.Path.segments segments).chars.rdropWhile (· = '/') =
      (Url.Path.segments (segments.rdropWhile (· = ""))).chars := by
  induction segments using List.reverseRecOn with
  | nil => rfl
  | append_singleton before last ih =>
    rw [List.forall_mem_append, List.forall_mem_singleton] at h
    have hlast : (Url.Path.segments [last]).chars = '/' :: last.toList := by
      simp [Url.Path.chars]
    rw [path_chars_append, hlast]
    by_cases hempty : last = ""
    · rw [hempty, String.toList_empty, List.rdropWhile_concat_pos _ _ _ (by decide),
        List.rdropWhile_concat_pos _ _ _ (by decide), ih h.1]
    · have hne : last.toList ≠ [] := mt String.toList_eq_nil_iff.mp hempty
      have hkept := (h.2.notSlash _ (List.getLast_mem hne)).1
      rw [← List.dropLast_append_getLast hne, ← List.cons_append, ← List.append_assoc,
        List.rdropWhile_concat_neg _ _ _ (by simpa using hkept),
        List.rdropWhile_concat_neg _ _ _ (by simpa using hempty), path_chars_append, hlast,
        List.append_assoc, List.cons_append, List.dropLast_append_getLast hne]

theorem toList_methodUrl (config : Config) (url : Url) (method : String) :
    ((towards config url).methodUrl method).toList = url.chars.rdropWhile (· = '/') ++
      ('/' :: servicePath.toList ++ '/' :: method.toList) := by
  unfold methodUrl towards
  simp [toList_trimSlashes, Url.text]

theorem segment_servicePath : Url.Segment servicePath.toList where
  encoded := by
    have hall : servicePath.toList.all (fun c => !Url.mustEncode Url.pathSet c) = true := by decide
    intro c hc
    simpa using List.all_eq_true.mp hall c hc
  notSlash := by
    have hall : servicePath.toList.all (fun c => c != '/' && c != '\\') = true := by decide
    intro c hc
    simpa using List.all_eq_true.mp hall c hc
  notSingleDot := by decide
  notDoubleDot := by decide

theorem segment_of_isAlpha {method : String} (h : ∀ c ∈ method.toList, c.isAlpha = true) :
    Url.Segment method.toList := by
  have hletter {c : Char} (hc : c.isAlpha = true) :
      Url.mustEncode Url.pathSet c = false ∧ c ≠ '/' ∧ c ≠ '\\' ∧ c ≠ '.' ∧ c ≠ '%' := by
    exact Url.forall_letter (P := fun c => Url.mustEncode Url.pathSet c = false ∧ c ≠ '/' ∧ c ≠ '\\' ∧
      c ≠ '.' ∧ c ≠ '%') (by decide) hc
  have hdot : Url.dropDot method.toList = none := by
    rw [Option.eq_none_iff_forall_not_mem]
    intro rest hrest
    rcases Url.dropDot_eq_some_iff.mp hrest with hcs | hcs | hcs
    · exact (hletter (h '.' (hcs ▸ List.mem_cons_self))).2.2.2.1 rfl
    · exact (hletter (h '%' (hcs ▸ List.mem_cons_self))).2.2.2.2 rfl
    · exact (hletter (h '%' (hcs ▸ List.mem_cons_self))).2.2.2.2 rfl
  exact
    { encoded := fun c hc => (hletter (h c hc)).1
      notSlash := fun c hc => ⟨(hletter (h c hc)).2.1, (hletter (h c hc)).2.2.1⟩
      notSingleDot := by
        rw [Url.isSingleDot, hdot]
        rfl
      notDoubleDot := by
        rw [Url.isDoubleDot, hdot]
        rfl }

section Targets
variable [Url.Naming] {defaultPort : Nat} {url : Url} {method : String}

/-- The text before a path does not end with a slash. -/
theorem frontChars_append (h : url.Settled defaultPort) (rest : List Char) :
    (url.frontChars ++ rest).rdropWhile (· = '/') =
      url.frontChars ++ rest.rdropWhile (· = '/') := by
  obtain ⟨info, host, port, own, hfront, -, -, hhost, hport, -⟩ := h.front
  have hne : host ++ port ≠ [] := by simp [hhost.ne_nil]
  have hlast : (host ++ port).getLast hne ≠ '/' :=
    Url.ne_of_authority hhost hport (by decide) (List.getLast_mem hne)
  have hbefore : url.frontChars = (url.scheme.toList ++ ':' :: '/' :: '/' ::
      (Url.infoText info ++ (host ++ port).dropLast)) ++ [(host ++ port).getLast hne] := by
    rw [hfront]
    conv_lhs => rw [← List.dropLast_append_getLast hne]
    simp
  rw [hbefore, ← List.append_cons, rdropWhile_slash hlast, List.append_cons]

/-- Without a query and a fragment the service and the method become the end of the path. -/
theorem parse_methodUrl (h : url.Settled defaultPort)
    (hscheme : url.scheme = "http" ∨ url.scheme = "https")
    (hweb : Url.Family.ofScheme url.scheme = .web defaultPort)
    (hmethod : ∀ c ∈ method.toList, c.isAlpha = true) (htail : url.query = none ∧ url.fragment = none)
    (config : Config) :
    ∃ path, Url.parse ((towards config url).methodUrl method) = .ok { url with path := path } ∧
      path.chars = methodPath url.path method := by
  obtain ⟨hquery, hfragment⟩ := htail
  obtain ⟨segments, hpath, -, hsegments⟩ := h.path
  have hbelow : ∀ segment ∈ segments.rdropWhile (· = "") ++ [servicePath, method],
      Url.Segment segment.toList := by
    refine List.forall_mem_append.mpr ⟨fun segment hmem => ?_, ?_⟩
    · exact hsegments segment ((List.rdropWhile_prefix _ _).subset hmem)
    · exact List.forall_mem_cons.mpr ⟨segment_servicePath,
        List.forall_mem_singleton.mpr (segment_of_isAlpha hmethod)⟩
  have hend : (Url.Path.segments [servicePath, method]).chars =
      '/' :: servicePath.toList ++ '/' :: method.toList := by
    simp [Url.Path.chars]
  have hchars : (Url.Path.segments (segments.rdropWhile (· = "") ++ [servicePath, method])).chars =
      methodPath url.path method := by
    rw [path_chars_append, hend, ← rdropWhile_path hsegments, methodPath, hpath, List.append_assoc]
  have htext : ((towards config url).methodUrl method).toList = url.frontChars ++
      ((Url.Path.segments (segments.rdropWhile (· = "") ++ [servicePath, method])).chars ++ []) := by
    have hnone : url.tailChars = [] := by
      rw [Url.tailChars, hquery, hfragment]
      rfl
    rw [toList_methodUrl, Url.chars_parts, hnone, List.append_nil, frontChars_append h, hchars,
      methodPath]
    simp
  refine ⟨.segments (segments.rdropWhile (· = "") ++ [servicePath, method]), ?_, hchars⟩
  rw [h.parse_front hscheme hweb (by simp) hbelow (by simp) (List.forall_mem_nil _) htext]
  rw [hquery, hfragment]
  rfl

/-- Behind a query or a fragment they become a part of it. -/
theorem parse_methodUrl_tail (h : url.Settled defaultPort)
    (hscheme : url.scheme = "http" ∨ url.scheme = "https")
    (hweb : Url.Family.ofScheme url.scheme = .web defaultPort)
    (hmethod : ∀ c ∈ method.toList, c.isAlpha = true)
    (htail : url.query ≠ none ∨ url.fragment ≠ none) (config : Config) :
    ∃ query fragment, Url.parse ((towards config url).methodUrl method) =
      .ok { url with query := query, fragment := fragment } := by
  obtain ⟨segments, hpath, hne, hsegments⟩ := h.path
  obtain ⟨mark, rest, hmark⟩ : ∃ mark rest, url.tailChars = mark :: rest := by
    apply List.exists_cons_of_ne_nil
    intro hnil
    rw [Url.tailChars, List.append_eq_nil_iff] at hnil
    rcases htail with hquery | hfragment
    · obtain ⟨query, hquery⟩ := Option.ne_none_iff_exists'.mp hquery
      rw [hquery] at hnil
      cases hnil.1
    · obtain ⟨fragment, hfragment⟩ := Option.ne_none_iff_exists'.mp hfragment
      rw [hfragment] at hnil
      cases hnil.2
  have hhead : mark = '?' ∨ mark = '#' := url.tail_head mark (by rw [hmark]; rfl)
  have hvisible := h.tail_visible
  rw [hmark, List.forall_mem_cons] at hvisible
  have hslash : mark ≠ '/' := by
    rcases hhead with rfl | rfl <;> decide
  have htext : ((towards config url).methodUrl method).toList = url.frontChars ++
      ((Url.Path.segments segments).chars ++ mark :: (rest.rdropWhile (· = '/') ++
        ('/' :: servicePath.toList ++ '/' :: method.toList))) := by
    rw [toList_methodUrl, Url.chars_parts, hmark, hpath, frontChars_append h, rdropWhile_slash hslash]
    simp
  have hkept : ∀ c ∈ mark :: (rest.rdropWhile (· = '/') ++
      ('/' :: servicePath.toList ++ '/' :: method.toList)), 0x20 < c.toNat := by
    have hservice := segment_servicePath.encoded.visible (by decide)
    have hname := (segment_of_isAlpha hmethod).encoded.visible (by decide)
    intro c hc
    simp only [List.mem_cons, List.mem_append, List.cons_append] at hc
    rcases hc with rfl | hc | rfl | hc | rfl | hc
    · exact hvisible.1
    · exact hvisible.2 c ((List.rdropWhile_prefix _ _).subset hc)
    · decide
    · exact hservice c hc
    · decide
    · exact hname c hc
  have hparse := h.parse_front hscheme hweb hne hsegments (by simpa using hhead) hkept htext
  rw [← hpath] at hparse
  exact ⟨_, _, hparse⟩

/-- Of every endpoint for which there is a client, requests go to its origin. They go below its path
just if it has neither a query nor a fragment, and to its path itself otherwise. -/
theorem methodUrl_target {config : Config} {connection : Connection} (hnaming : Url.Naming.Standard)
    (h : ofConfig config = .ok connection) (hmethod : ∀ c ∈ method.toList, c.isAlpha = true) :
    ∃ url target, config.endpoint = .ok url ∧
      Url.parse (connection.methodUrl method) = .ok target ∧
      target.scheme = url.scheme ∧ target.host = url.host ∧ target.port = url.port ∧
      target.username = url.username ∧ target.password = url.password ∧
      (target.path.chars = methodPath url.path method ↔ url.query = none ∧ url.fragment = none) ∧
      (target.path = url.path ↔ url.query ≠ none ∨ url.fragment ≠ none) := by
  obtain ⟨url, hurl, -, -, rfl⟩ := ofConfig_eq_ok_iff.mp h
  obtain ⟨hread, hscheme⟩ := Config.endpoint_read hurl
  obtain ⟨defaultPort, hweb⟩ := Url.ofScheme_web hscheme
  have hsettled := Url.parse_settled hnaming hread hweb
  by_cases hplain : url.query = none ∧ url.fragment = none
  · obtain ⟨path, hparse, hpath⟩ :=
      parse_methodUrl hsettled hscheme hweb hmethod hplain config
    refine ⟨url, _, hurl, hparse, rfl, rfl, rfl, rfl, rfl, iff_of_true hpath hplain, iff_of_false ?_ ?_⟩
    · rintro rfl
      exact methodPath_ne _ method hpath
    · rwa [← not_and_or, not_not]
  · have htail := not_and_or.mp hplain
    obtain ⟨query, fragment, hparse⟩ :=
      parse_methodUrl_tail hsettled hscheme hweb hmethod htail config
    exact ⟨url, _, hurl, hparse, rfl, rfl, rfl, rfl, rfl, iff_of_false (methodPath_ne _ method) hplain,
      iff_of_true rfl htail⟩

end Targets

/-- An endpoint with a user, the default port, dots and repeated slashes, and one with a query. -/
theorem methodUrl_target_rooted :
    let config : Config :=
      { uri := "https://user@Ex%41mple.COM:443//base/./sub///", token := some "secret" }
    let asking : Config := { uri := "localhost:50051/base/?zone=a/" }
    (∃ connection target, ofConfig config = .ok connection ∧
      Url.parse (connection.methodUrl "GetValue") = .ok target ∧
      target.host = some (.domain "example.com") ∧ target.port = none ∧
      target.path.chars = ("//base/sub/" ++ servicePath ++ "/GetValue").toList) ∧
    ∃ connection target, ofConfig asking = .ok connection ∧
      Url.parse (connection.methodUrl "GetValue") = .ok target ∧
      target.port = some 50051 ∧ target.path = .segments ["base", ""] := by
  intro config asking
  have hmethod : ∀ c ∈ "GetValue".toList, c.isAlpha = true := by
    have hall : "GetValue".toList.all Char.isAlpha = true := rfl
    exact List.all_eq_true.mp hall
  have hurl : config.endpoint = .ok
      { scheme := "https", username := "user", host := some (.domain "example.com"),
        path := .segments ["", "base", "sub", "", "", ""] } := by
    decide +kernel
  have haskingUrl : asking.endpoint = .ok
      { scheme := "http", host := some (.domain "localhost"), port := some 50051,
        path := .segments ["base", ""], query := some "zone=a/" } := by
    decide +kernel
  have hagent : isHeaderValue defaultUserAgent = true := by decide
  have hconfig := ofConfig_eq_ok_iff.mpr ⟨_, hurl, .inr ⟨rfl, by decide⟩, hagent, rfl⟩
  have hasking := ofConfig_eq_ok_iff.mpr ⟨_, haskingUrl, .inl (by decide), hagent, rfl⟩
  refine ⟨?_, ?_⟩
  · obtain ⟨url, target, hendpoint, hparse, -, hhost, hport, -, -, hpath, -⟩ :=
      methodUrl_target Url.asciiNames_standard hconfig hmethod
    rw [hurl] at hendpoint
    cases hendpoint
    refine ⟨_, target, hconfig, hparse, hhost, hport, ?_⟩
    rw [hpath.mpr ⟨rfl, rfl⟩]
    decide
  · obtain ⟨url, target, hendpoint, hparse, -, -, hport, -, -, -, hpath⟩ :=
      methodUrl_target Url.asciiNames_standard hasking hmethod
    rw [haskingUrl] at hendpoint
    cases hendpoint
    exact ⟨_, target, hasking, hparse, hport, hpath.mpr (.inl (by decide))⟩

/-- Behind a fragment neither the service nor the method is sent. -/
theorem method_lost_in_fragment :
    let config : Config := { uri := "http://localhost/base#zone" }
    let connection : Connection :=
      { endpoint := "http://localhost/base#zone", token := none, userAgent := defaultUserAgent,
        timeoutMs := none }
    ofConfig config = .ok connection ∧
      (Url.parse (connection.methodUrl "GetValue")).map (·.path.chars) = .ok "/base".toList ∧
      (config.endpoint.map fun url => methodPath url.path "GetValue") =
        .ok ("/base/" ++ servicePath ++ "/GetValue").toList := by
  intro config connection
  have hurl : config.endpoint = .ok
      { scheme := "http", host := some (.domain "localhost"), path := .segments ["base"],
        fragment := some "zone" } := by
    decide +kernel
  have hagent : isHeaderValue defaultUserAgent = true := by decide
  refine ⟨ofConfig_eq_ok_iff.mpr ⟨_, hurl, .inl (by decide), hagent, by decide⟩, by decide +kernel, ?_⟩
  rw [hurl]
  decide

end Connection
end ScopedStore.Account
