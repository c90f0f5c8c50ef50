import ScopedStore.Proofs.Device.Atomicity
import ScopedStore.Proofs.Device.Logs
import ScopedStore.Proofs.Device.Reachable

/-! Opening and closing a handle. Opening takes the file at the path as it is or fails without a
trace, and a handle that lets go of its file and takes it up again goes on as if it never had. The
one thing in the way is the log of another file, which only a handle that writes ahead leaves. -/
namespace ScopedStore.Device

/-- A version that opening accepts: the current one, or none yet. -/
def Opens (version : Option Int) : Prop := version = none ∨ version = some 1

theorem Database.setUp_ready {version : Option Int} (h : Opens version) (t : Tables) :
    (⟨version, some t⟩ : Database).setUp = .ok ⟨some 1, some t⟩ := by
  rcases h with rfl | rfl
  · rfl
  · rfl

theorem Database.setUp_unsupported {content : Database} (h : ¬ Opens content.version) :
    content.setUp = .error (.unsupportedVersion (content.version.getD 1)) := by
  obtain ⟨version, tables⟩ := content
  cases version with
  | none => exact absurd (.inl rfl) h
  | some number =>
    have hother : number ≠ schemaVersion := fun he => h (.inr (congrArg some he))
    unfold setUp
    dsimp only
    rw [if_neg hother]
    rfl

namespace Site

variable {site : Site} {mode : JournalMode}

theorem connect_blocked (h : site.folder = .blocked) :
    site.connect mode = (.error .folderBlocked, site) := by
  unfold connect
  rw [h]

theorem connect_file (h : site.folder ≠ .blocked) {content : Database}
    (hslot : site.slot = .file (.database content)) :
    site.connect mode = connect.establish mode content { site with folder := .present } := by
  unfold connect
  split
  next hblocked => exact absurd hblocked h
  next => simp only [hslot]

end Site

namespace Handle

variable {config : Config} {site : Site} {ε α : Type}

theorem transact_account (writing : Bool) (refuse : Error → ε) (body : Tx ε α) (site : Site) :
    transact writing refuse .account body site =
      (.error (refuse (.foreignScope Scope.account.name)), site) := rfl

theorem transact_closed (writing : Bool) (refuse : Error → ε) (body : Tx ε α)
    (h : site.link = none) :
    transact writing refuse .device body site = (.error (refuse .closed), site) := by
  have hlive : live site = .error .closed := by simp [live, Site.isOpen, h]
  unfold transact start
  rw [hlive]
  rfl

/-- On the file at the path a transaction does what its plan does to the rows. -/
theorem transact_held (writing : Bool) (refuse : Error → ε) (plan : Plan ε α) {t : Tables}
    {version : Option Int} (hslot : site.slot = .file (.ready version t))
    (hlink : site.link = some .current) :
    transact writing refuse .device plan.body site =
      match plan.on t with
      | .ok (a, t') => (.ok a, { site with slot := .file (.ready version t') })
      | .error cause => (.error cause, site) := by
  have hstart : start writing .device site = .ok (.ready version t) :=
    start_of_live (live_current hslot hlink) (by simp [Image.ready])
  have hlook : site.look (.ready version t) = site := site.look_ready version t
  have hmoved : site.isMoved = false := by simp [Site.isMoved, hlink]
  unfold transact
  rw [hstart]
  dsimp only
  rw [hmoved, hlook, plan.body_eq]
  cases plan.on t with
  | error cause => rfl
  | ok found =>
    dsimp only [Except.map]
    unfold Site.writeBack
    rw [hlink]

end Handle

/-- A handle that holds the file at the path, or none; there are rows in the file. -/
structure Site.Holds (site : Site) (version : Option Int) (t : Tables) : Prop where
  slot : site.slot = .file (.ready version t)
  link : site.link = none ∨ site.link = some .current

/-- The rows are the same, and opening succeeds on both sites or on neither. -/
structure Site.Akin (site other : Site) : Prop where
  folder : other.folder = .blocked ↔ site.folder = .blocked
  files : ∃ version version' t, site.Holds version t ∧ other.Holds version' t ∧
    (version' = version ∨ Opens version ∧ Opens version')

/-- Both handles hold the file as well, or neither does. -/
structure Site.Alike (site other : Site) : Prop extends Site.Akin site other where
  link : other.link = site.link

namespace Site.Holds

variable {config : Config} {mode : JournalMode} {site : Site} {version : Option Int} {t : Tables}

theorem run_open (config : Config) (site : Site) :
    Use.run config .open site = site.connect config.journalMode := rfl

theorem connect_ready (h : site.Holds version t) (hfolder : site.folder ≠ .blocked)
    (hopens : Opens version) :
    site.connect mode = (.ok (), site.opened mode ⟨some 1, some t⟩) := by
  rw [connect_file hfolder h.slot]
  unfold connect.establish
  rw [Database.setUp_ready hopens]
  rfl

theorem connect_unsupported (h : site.Holds version t) (hfolder : site.folder ≠ .blocked)
    (hopens : ¬ Opens version) :
    site.connect mode =
      (.error (.unsupportedVersion (version.getD 1)), { site with folder := .present }) := by
  have hcontent : ¬ Opens (⟨version, some t⟩ : Database).version := hopens
  rw [connect_file hfolder h.slot]
  unfold connect.establish
  rw [Database.setUp_unsupported hcontent]

end Site.Holds

/-- What a use does, it does on both sites. -/
theorem Site.Alike.run (config : Config) {site other : Site} (h : site.Alike other) (use : Use) :
    (use.run config other).1 = (use.run config site).1 ∧
      (use.run config site).2.Alike (use.run config other).2 := by
  have hlink := h.link
  obtain ⟨hfolder, version, version', t, hsite, hother, hversions⟩ := h.toAkin
  cases use with
  | «open» =>
    rw [Site.Holds.run_open, Site.Holds.run_open]
    by_cases hblocked : site.folder = .blocked
    · rw [Site.connect_blocked hblocked, Site.connect_blocked (hfolder.mpr hblocked)]
      exact ⟨rfl, h⟩
    · have hblocked' : other.folder ≠ .blocked := fun he => hblocked (hfolder.mp he)
      by_cases hopens : Opens version
      · have hopens' : Opens version' := by
          rcases hversions with he | ⟨_, hopens'⟩
          · exact he ▸ hopens
          · exact hopens'
        rw [hsite.connect_ready hblocked hopens, hother.connect_ready hblocked' hopens']
        exact ⟨rfl, ⟨Iff.rfl, some 1, some 1, t, ⟨rfl, .inr rfl⟩, ⟨rfl, .inr rfl⟩, .inl rfl⟩, rfl⟩
      · obtain rfl : version' = version := by
          rcases hversions with he | ⟨hopens', _⟩
          · exact he
          · exact absurd hopens' hopens
        rw [hsite.connect_unsupported hblocked hopens, hother.connect_unsupported hblocked' hopens]
        exact ⟨rfl, ⟨Iff.rfl, version', version', t, ⟨hsite.slot, hsite.link⟩,
          ⟨hother.slot, hother.link⟩, .inl rfl⟩, hlink⟩
  | close =>
    exact ⟨rfl, ⟨hfolder, version, version', t, ⟨hsite.slot, .inl rfl⟩, ⟨hother.slot, .inl rfl⟩,
      hversions⟩, rfl⟩
  | isOpen =>
    refine ⟨?_, h⟩
    change other.isOpen = site.isOpen
    unfold Site.isOpen
    rw [hlink]
  | transact writing refuse scope plan =>
    change (Handle.transact writing refuse scope plan.body other).1 =
        (Handle.transact writing refuse scope plan.body site).1 ∧
      (Handle.transact writing refuse scope plan.body site).2.Alike
        (Handle.transact writing refuse scope plan.body other).2
    cases scope with
    | account =>
      rw [Handle.transact_account, Handle.transact_account]
      exact ⟨rfl, h⟩
    | device =>
      rcases hsite.link with hclosed | hheld
      · rw [Handle.transact_closed _ _ _ hclosed,
          Handle.transact_closed _ _ _ (hlink.trans hclosed)]
        exact ⟨rfl, h⟩
      · rw [Handle.transact_held _ _ _ hsite.slot hheld,
          Handle.transact_held _ _ _ hother.slot (hlink.trans hheld)]
        cases plan.on t with
        | error cause => exact ⟨rfl, h⟩
        | ok found =>
          exact ⟨rfl, ⟨hfolder, version, version', found.2, ⟨rfl, hsite.link⟩,
            ⟨rfl, hother.link⟩, hversions⟩, hlink⟩

theorem Site.Alike.runAll (config : Config) {site other : Site} (h : site.Alike other)
    (uses : List Use) :
    (Use.runAll config uses other).1 = (Use.runAll config uses site).1 := by
  induction uses generalizing site other with
  | nil => rfl
  | cons use rest ih =>
    obtain ⟨hresult, hafter⟩ := h.run config use
    unfold Use.runAll
    dsimp only
    rw [hresult, ih hafter]

theorem Site.Holds.run (config : Config) {site : Site} {t : Tables} (h : site.Holds (some 1) t)
    (use : Use) : ∃ t', (use.run config site).2.Holds (some 1) t' := by
  cases use with
  | isOpen => exact ⟨t, h⟩
  | close => exact ⟨t, h.slot, .inl rfl⟩
  | «open» =>
    rw [run_open]
    by_cases hblocked : site.folder = .blocked
    · rw [connect_blocked hblocked]
      exact ⟨t, h⟩
    · rw [h.connect_ready hblocked (.inr rfl)]
      exact ⟨t, rfl, .inr rfl⟩
  | transact writing refuse scope plan =>
    change ∃ t', (Handle.transact writing refuse scope plan.body site).2.Holds (some 1) t'
    cases scope with
    | account => exact ⟨t, h⟩
    | device =>
      rcases h.link with hclosed | hheld
      · rw [Handle.transact_closed _ _ _ hclosed]
        exact ⟨t, h⟩
      · rw [Handle.transact_held _ _ _ h.slot hheld]
        cases plan.on t with
        | error cause => exact ⟨t, h⟩
        | ok found => exact ⟨found.2, rfl, h.link⟩

theorem Site.Holds.runAll (config : Config) {site : Site} {t : Tables} (h : site.Holds (some 1) t)
    (uses : List Use) : ∃ t', (Use.runAll config uses site).2.Holds (some 1) t' := by
  induction uses generalizing site t with
  | nil => exact ⟨t, h⟩
  | cons use rest ih =>
    obtain ⟨t', hnext⟩ := h.run config use
    exact ih hnext

end ScopedStore.Device
