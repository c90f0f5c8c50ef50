import ScopedStore.Proofs.Url.Encoding

/-! Paths. What is read of one has no dots left and reads back as it is. -/
namespace ScopedStore.Url

theorem mem_parent {done : List (List Char)} {segment : List Char} (h : segment ∈ parent done) :
    segment ∈ done := by
  cases done with
  | nil => exact h
  | cons last above =>
    rw [parent] at h
    split at h
    · exact h
    · exact List.mem_cons_of_mem _ h

/-- A folder is one of the segments, or nothing behind a slash. -/
theorem forall_resolve {P : List Char → Prop} {done segments : List (List Char)}
    (hdone : ∀ segment ∈ done, P segment) (hempty : P [])
    (h : ∀ segment ∈ segments, isSingleDot segment = false → isDoubleDot segment = false →
      P segment) :
    ∀ segment ∈ resolve done segments, P segment := by
  have habove {done : List (List Char)} (hdone : ∀ segment ∈ done, P segment) :
      ∀ segment ∈ parent done, P segment := fun segment hmem => hdone segment (mem_parent hmem)
  fun_induction resolve done segments with
  | case1 done => simpa using hdone
  | case2 done last hdouble =>
    intro segment hmem
    rw [List.mem_reverse, List.mem_cons] at hmem
    rcases hmem with rfl | hmem
    · exact hempty
    · exact habove hdone segment hmem
  | case3 done last hdouble hsingle =>
    intro segment hmem
    rw [List.mem_reverse, List.mem_cons] at hmem
    rcases hmem with rfl | hmem
    · exact hempty
    · exact hdone segment hmem
  | case4 done last hdouble hsingle =>
    intro segment hmem
    rw [List.mem_reverse, List.mem_cons] at hmem
    rcases hmem with rfl | hmem
    · exact h segment List.mem_cons_self (Bool.not_eq_true _ ▸ hsingle) (Bool.not_eq_true _ ▸ hdouble)
    · exact hdone segment hmem
  | case5 done first rest hrest hdouble ih =>
    exact ih (habove hdone) fun segment hmem => h segment (List.mem_cons_of_mem _ hmem)
  | case6 done first rest hrest hdouble hsingle ih =>
    exact ih hdone fun segment hmem => h segment (List.mem_cons_of_mem _ hmem)
  | case7 done first rest hrest hdouble hsingle ih =>
    refine ih (List.forall_mem_cons.mpr ⟨?_, hdone⟩)
      fun segment hmem => h segment (List.mem_cons_of_mem _ hmem)
    exact h first List.mem_cons_self (Bool.not_eq_true _ ▸ hsingle) (Bool.not_eq_true _ ▸ hdouble)

theorem resolve_ne_nil (done : List (List Char)) {segments : List (List Char)} (h : segments ≠ []) :
    resolve done segments ≠ [] := by
  fun_induction resolve done segments with
  | case1 => exact absurd rfl h
  | case2 | case3 | case4 => simp
  | case5 _ _ _ hrest _ ih | case6 _ _ _ hrest _ _ ih | case7 _ _ _ hrest _ _ ih => exact ih hrest

theorem resolve_of_forall (done : List (List Char)) {segments : List (List Char)}
    (h : ∀ segment ∈ segments, isSingleDot segment = false ∧ isDoubleDot segment = false) :
    resolve done segments = done.reverse ++ segments := by
  fun_induction resolve done segments with
  | case1 => simp
  | case4 => simp
  | case2 _ _ hdouble | case5 _ _ _ _ hdouble => simp_all
  | case3 _ _ _ hsingle | case6 _ _ _ _ _ hsingle => simp_all
  | case7 done first rest hrest hdouble hsingle ih =>
    rw [ih (List.forall_mem_cons.mp h).2]
    simp

/-- A segment as it stands in a path: encoded, and nothing that parts segments or is resolved. -/
structure Segment (cs : List Char) : Prop where
  encoded : Encoded pathSet cs
  notSlash : ∀ c ∈ cs, c ≠ '/' ∧ c ≠ '\\'
  notSingleDot : isSingleDot cs = false
  notDoubleDot : isDoubleDot cs = false

theorem Segment.of_encode {cs : List Char} (hslash : ∀ c ∈ cs, c ≠ '/' ∧ c ≠ '\\')
    (hsingle : isSingleDot cs = false) (hdouble : isDoubleDot cs = false) :
    Segment (encode pathSet cs) where
  encoded := encode_encoded (by decide) cs
  notSlash c hc := by
    rcases mem_encode c hc with hmem | hescape
    · exact hslash c hmem
    · constructor
      · rintro rfl
        exact absurd hescape (by decide)
      · rintro rfl
        exact absurd hescape (by decide)
  notSingleDot := isSingleDot_encode hsingle
  notDoubleDot := isDoubleDot_encode hdouble

theorem splitOn_ne_nil (separator : Char) (cs : List Char) : splitOn separator cs ≠ [] := by
  cases cs with
  | nil => exact List.cons_ne_nil _ _
  | cons c rest =>
    rw [splitOn]
    split
    · exact List.cons_ne_nil _ _
    · split <;> exact List.cons_ne_nil _ _

theorem mem_of_mem_splitOn {separator : Char} {cs part : List Char} (h : part ∈ splitOn separator cs) :
    ∀ c ∈ part, c ∈ cs ∧ c ≠ separator := by
  induction cs generalizing part with
  | nil =>
    rw [List.mem_singleton.mp h]
    exact List.forall_mem_nil _
  | cons first rest ih =>
    have hlater {part : List Char} (hpart : part ∈ splitOn separator rest) :
        ∀ c ∈ part, c ∈ first :: rest ∧ c ≠ separator := fun c hc =>
      ⟨List.mem_cons_of_mem _ (ih hpart c hc).1, (ih hpart c hc).2⟩
    rw [splitOn] at h
    split at h
    · rcases List.mem_cons.mp h with rfl | h
      · exact List.forall_mem_nil _
      · exact hlater h
    next hne =>
      obtain ⟨head, tail, hsplit⟩ := List.exists_cons_of_ne_nil (splitOn_ne_nil separator rest)
      rw [hsplit] at h hlater
      rcases List.mem_cons.mp h with rfl | h
      · exact List.forall_mem_cons.mpr ⟨⟨List.mem_cons_self, hne⟩, hlater List.mem_cons_self⟩
      · exact hlater (List.mem_cons_of_mem _ h)

/-- The segments of a path are found again between its slashes. -/
theorem splitOn_path {first : List Char} {rest : List (List Char)}
    (h : ∀ segment ∈ first :: rest, ∀ c ∈ segment, c ≠ '/') :
    splitOn '/' (first ++ rest.flatMap ('/' :: ·)) = first :: rest := by
  induction rest generalizing first with
  | nil =>
    rw [List.flatMap_nil, List.append_nil]
    exact splitOn_of_forall (h first List.mem_cons_self)
  | cons next rest ih =>
    obtain ⟨hfirst, hrest⟩ := List.forall_mem_cons.mp h
    rw [List.flatMap_cons, List.cons_append, splitOn_append hfirst, ih hrest]

section Web
variable {defaultPort : Nat}

theorem readPath_web (cs : List Char) :
    ∃ segments, readPath (.web defaultPort) cs = .segments segments ∧ segments ≠ [] ∧
      ∀ segment ∈ segments, Segment segment.toList := by
  have hempty : Segment [] := ⟨List.forall_mem_nil _, List.forall_mem_nil _, rfl, rfl⟩
  have hsegments (cs : List Char) : ∃ segments,
      readSegments (.web defaultPort) cs = .segments segments ∧ segments ≠ [] ∧
        ∀ segment ∈ segments, Segment segment.toList := by
    unfold readSegments
    dsimp only
    refine ⟨_, rfl, ?_, ?_⟩
    · simpa using resolve_ne_nil [] (splitOn_ne_nil _ _)
    · intro segment hmem
      obtain ⟨raw, hraw, rfl⟩ := List.mem_map.mp hmem
      rw [String.toList_ofList]
      refine forall_resolve (P := fun cs => Segment (encode pathSet cs)) (List.forall_mem_nil _) hempty
        (fun part hpart hsingle hdouble => Segment.of_encode ?_ hsingle hdouble) raw hraw
      intro c hc
      obtain ⟨hnormal, hne⟩ := mem_of_mem_splitOn hpart c hc
      obtain ⟨d, -, rfl⟩ := List.mem_map.mp hnormal
      split at hne
      · exact absurd rfl hne
      next hslash =>
        rw [if_neg hslash]
        refine ⟨hne, ?_⟩
        rintro rfl
        exact hslash rfl
  cases cs with
  | nil => exact ⟨[""], rfl, List.cons_ne_nil _ _, List.forall_mem_singleton.mpr hempty⟩
  | cons c rest =>
    unfold readPath
    dsimp only
    split
    · exact hsegments rest
    · exact hsegments (c :: rest)

/-- A path in which all is encoded and resolved reads as it stands. -/
theorem readPath_chars {segments : List String} (hne : segments ≠ [])
    (h : ∀ segment ∈ segments, Segment segment.toList) :
    readPath (.web defaultPort) (Path.segments segments).chars = .segments segments := by
  obtain ⟨first, rest, rfl⟩ := List.exists_cons_of_ne_nil hne
  have hraw : ∀ segment ∈ first.toList :: rest.map String.toList, Segment segment := by
    rw [← List.map_cons, List.forall_mem_map]
    exact h
  have hchars : (Path.segments (first :: rest)).chars =
      '/' :: (first.toList ++ (rest.map String.toList).flatMap ('/' :: ·)) := by
    simp [Path.chars, List.flatMap_map]
  have hnormal : (first.toList ++ (rest.map String.toList).flatMap ('/' :: ·)).map
      (fun c => if (Family.web defaultPort).isSlash c then '/' else c) =
        first.toList ++ (rest.map String.toList).flatMap ('/' :: ·) := by
    have hkept {c : Char} (hc : c ≠ '\\') :
        (if (Family.web defaultPort).isSlash c then '/' else c) = c := by
      by_cases hslash : c = '/'
      · rw [hslash]
        rfl
      · simp [Family.isSlash, hslash, hc]
    have hback : ∀ c ∈ first.toList ++ (rest.map String.toList).flatMap ('/' :: ·), c ≠ '\\' := by
      intro c hc
      rcases List.mem_append.mp hc with hc | hc
      · exact ((hraw _ List.mem_cons_self).notSlash c hc).2
      · obtain ⟨segment, hmem, hc⟩ := List.mem_flatMap.mp hc
        rcases List.mem_cons.mp hc with rfl | hc
        · decide
        · exact ((hraw segment (List.mem_cons_of_mem _ hmem)).notSlash c hc).2
    conv_rhs => rw [← List.map_id (first.toList ++ _)]
    exact List.map_congr_left fun c hc => hkept (hback c hc)
  rw [hchars]
  change readSegments (.web defaultPort) _ = _
  unfold readSegments
  dsimp only
  rw [hnormal, splitOn_path fun segment hmem c hc => ((hraw segment hmem).notSlash c hc).1,
    resolve_of_forall [] fun segment hmem =>
      ⟨(hraw segment hmem).notSingleDot, (hraw segment hmem).notDoubleDot⟩,
    List.reverse_nil, List.nil_append, ← List.map_cons, List.map_map]
  have hsame : ∀ segment ∈ first :: rest,
      ((fun segment => String.ofList (encode pathSet segment)) ∘ String.toList) segment = segment := by
    intro segment hmem
    rw [Function.comp_apply, (h segment hmem).encoded.encode_eq, String.ofList_toList]
  rw [List.map_congr_left hsame, List.map_id']

end Web

end ScopedStore.Url
