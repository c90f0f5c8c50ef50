import ScopedStore.Proofs.Device.Effects
import ScopedStore.Proofs.Device.Uses

/-! What happens around a handle: it is used, and files are moved, replaced or altered behind its
back. A handle in delete mode keeps no log, so none is ever left beside the path. -/
namespace ScopedStore.Device

/-- One thing that happens. -/
inductive Turn where
  | use (use : Use)
  | remove
  | move
  | restore
  | swap
  | overwrite (size : Nat)
  | block
  | unblock
  | edit (edit : Database → Database)

namespace Turn

def run (config : Config) : Turn → Site → Site
  | use asked, site => (asked.run config site).2
  | remove, site => site.removeFile
  | move, site => site.moveFile
  | restore, site => site.restoreFile
  | swap, site => site.swapFile
  | overwrite size, site => site.overwriteFile size
  | block, site => site.blockParent
  | unblock, site => site.unblockParent
  | edit change, site => site.editDatabase change

def runAll (config : Config) (turns : List Turn) (site : Site) : Site :=
  turns.foldl (fun site turn => turn.run config site) site

end Turn

/-- The log of another file stands beside the one at the path. -/
def Slot.IsShadowed : Slot → Prop
  | .shadowed .. => True
  | _ => False

/-- The connection, if there is one, keeps no log, and nowhere stands one. -/
structure Site.Logless (site : Site) : Prop where
  settled : site.settled = none
  stray : site.stray = none
  path : ¬ site.slot.IsShadowed
  aside : ¬ site.aside.IsShadowed

theorem Site.not_shadowed_bare (site : Site) : ¬ site.bare.IsShadowed := by
  unfold bare
  cases site.slot with
  | missing | directory | shadowed => exact not_false
  | file image =>
    dsimp only
    split <;> exact not_false

namespace Site.Logless

variable {config : Config} {site site' : Site}

theorem log?_eq (h : site.Logless) : site.log? = none := by
  obtain ⟨folder, slot, aside, link, saw, settled, stray⟩ := site
  obtain ⟨hsettled, hstray, hpath, -⟩ := h
  dsimp only at hsettled hstray hpath
  subst hsettled hstray
  cases slot with
  | missing | directory => rfl
  | shadowed => exact absurd trivial hpath
  | file image => simp [log?]

theorem clear (h : site.Logless) : site.clear.Logless :=
  ⟨h.settled, h.log?_eq, not_false, h.aside⟩

theorem withSlot (h : site.Logless) (image : Image) :
    Logless { site with slot := .file image } :=
  ⟨h.settled, h.stray, not_false, h.aside⟩

theorem put (h : site.Logless) (image : Image) : (site.put image).Logless := by
  unfold Site.put
  rw [h.log?_eq]
  exact h.withSlot image

theorem withLink (h : site.Logless) (link : Option Link) : Logless { site with link := link } :=
  ⟨h.settled, h.stray, h.path, h.aside⟩

theorem withAside (h : site.Logless) (aside : Slot) (haside : ¬ aside.IsShadowed) :
    Logless { site with aside := aside } :=
  ⟨h.settled, h.stray, h.path, haside⟩

theorem moveFile (h : site.Logless) : site.moveFile.Logless := by
  unfold Site.moveFile
  split
  · exact h
  · exact (h.clear.withAside _ site.not_shadowed_bare).withLink _

theorem restoreFile (h : site.Logless) : site.restoreFile.Logless := by
  unfold Site.restoreFile
  split
  · exact h
  · exact h
  · exact ⟨h.settled, h.clear.stray, not_false, not_false⟩
  next image _ =>
    have hrestored := (h.clear.put image).withAside .missing not_false
    dsimp only
    split
    · exact hrestored.withLink _
    next settled held hsettled _ => cases hsettled.symm.trans h.settled
    · exact hrestored

theorem swapFile (h : site.Logless) : site.swapFile.Logless := by
  unfold Site.swapFile
  split
  · exact h.clear.put _
  · exact h

theorem overwriteFile (h : site.Logless) (size : Nat) : (site.overwriteFile size).Logless := by
  unfold Site.overwriteFile
  split
  · exact h.put _
  · exact h.put _
  · have hslot := h.withSlot (.ofBytes size)
    rw [h.log?_eq, h.settled]
    refine ⟨?_, hslot.stray, hslot.path, hslot.aside⟩
    dsimp only
    split <;> rfl
  · exact h

theorem blockParent (h : site.Logless) : site.blockParent.Logless :=
  ⟨h.settled, rfl, not_false, not_false⟩

theorem unblockParent (h : site.Logless) : site.unblockParent.Logless := by
  unfold Site.unblockParent
  split
  · exact ⟨h.settled, h.stray, h.path, h.aside⟩
  · exact h

theorem editDatabase (h : site.Logless) (edit : Database → Database) :
    (site.editDatabase edit).Logless := by
  unfold Site.editDatabase
  split
  · exact h.withSlot _
  · exact h.withSlot _
  · exact h

theorem disconnect (h : site.Logless) : site.disconnect.Logless :=
  ⟨rfl, h.stray, h.path, h.aside⟩

theorem writeBack (h : site.Logless) (image : Image) : (site.writeBack image).Logless := by
  unfold Site.writeBack
  split
  · exact h
  · exact h.withSlot image
  · exact h.withAside (.file image) not_false
  next held _ =>
    have hkept : ¬ (site.settled.isSome ∧ image ≠ held) := by simp [h.settled]
    rw [if_neg hkept]
    exact h.withLink _

theorem transact {ε α : Type} (h : site.Logless) (writing : Bool) (refuse : Error → ε)
    (scope : Scope) (body : Tx ε α) :
    (Handle.transact writing refuse scope body site).2.Logless := by
  have hseeing (saw : Bool) : (site.seeing saw).Logless := ⟨h.settled, h.stray, h.path, h.aside⟩
  obtain ⟨saw, ⟨cause, -, hsite⟩ | ⟨a, image, after, standing, -, -, -, -, hsite⟩⟩ :=
    Handle.transact_cases (Prod.eta (Handle.transact writing refuse scope body site)).symm
  · rw [hsite]
    exact hseeing saw
  · rw [hsite]
    exact (hseeing saw).writeBack after

/-- In delete mode a connection keeps no log. -/
theorem connect (h : site.Logless) : (site.connect .delete).2.Logless := by
  have hpresent : Logless { site with folder := .present } := ⟨h.settled, h.stray, h.path, h.aside⟩
  have hestablish (content : Database) :
      (Site.connect.establish .delete content { site with folder := .present }).2.Logless := by
    unfold Site.connect.establish
    cases content.setUp with
    | error cause => exact hpresent
    | ok ready =>
      refine ⟨?_, h.stray, not_false, h.aside⟩
      dsimp only [settledUnder]
      split
      · exact h.settled
      · rfl
  unfold Site.connect
  split
  · exact h
  · dsimp only
    split
    · exact hpresent
    · exact hpresent
    · exact hestablish _
    · exact hestablish _
    · exact hestablish _

theorem use (h : site.Logless) (hmode : config.journalMode = .delete) (use : Use) :
    (use.run config site).2.Logless := by
  cases use with
  | «open» =>
    change (site.connect config.journalMode).2.Logless
    rw [hmode]
    exact h.connect
  | close => exact h.disconnect
  | isOpen => exact h
  | transact writing refuse scope plan => exact h.transact writing refuse scope plan.body

theorem turn (h : site.Logless) (hmode : config.journalMode = .delete) (turn : Turn) :
    (turn.run config site).Logless := by
  cases turn with
  | use asked => exact h.use hmode asked
  | remove =>
    change site.removeFile.Logless
    unfold Site.removeFile
    split
    · exact h.clear
    · exact h
  | move => exact h.moveFile
  | restore => exact h.restoreFile
  | swap => exact h.swapFile
  | overwrite size => exact h.overwriteFile size
  | block => exact h.blockParent
  | unblock => exact h.unblockParent
  | edit change => exact h.editDatabase change

/-- In delete mode no log is ever left, whatever happens. -/
theorem turns (h : site.Logless) (hmode : config.journalMode = .delete) (turns : List Turn) :
    (Turn.runAll config turns site).Logless := by
  induction turns generalizing site with
  | nil => exact h
  | cons turn rest ih => exact ih (h.turn hmode turn)

end Site.Logless

end ScopedStore.Device
