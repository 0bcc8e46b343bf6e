import Predistortion.Proofs.Contract

/-!
# What operations leave alone

Most operations reach the session only through its chip. A view of the session that does not look at
the chip (`OffChip`) is therefore kept by all of them: by requests and commands, by changes of pins,
and by every access to the tables, however the operation ends. To keep a view is a contract
(`Contract.keeping`), so this follows from the walk through these operations.
-/

namespace Predistortion

open SessionM

variable {α γ : Type}

/-- The view does not look at the chip of the session. -/
def OffChip (f : Session → γ) : Prop := ∀ (s : Session) (chip : Chip), f { s with chip } = f s

/-- The phase is kept beside the chip. This is the view that the life cycle of captures is about. -/
theorem offChip_phase : OffChip Session.phase := fun _ _ => rfl

namespace Keeps

variable {f : Session → γ}

/-- A computation on the chip leaves every view that does not look at the chip. -/
theorem onChip (hf : OffChip f) (m : ChipM α) : Keeps f (SessionM.onChip m) := by
  intro s
  rw [ends_onChip]
  exact (ends_self m s.chip).mono (fun _ chip _ => hf s chip) (fun _ chip _ => hf s chip)

/-- So does a single request, served or refused. -/
theorem perform (hf : OffChip f) (r : Request) : Keeps f (SessionM.perform r) :=
  onChip hf (Chip.perform r)

/-- So does a command, with the wait for it and with its status. All that it changes is on the
chip. -/
theorem execute (hf : OffChip f) (k : Command) : Keeps f (SessionM.execute k) := by
  have requests (r : Request) : Obeys (.keeping f) (SessionM.perform r) := perform hf r
  exact Obeys.command (requests _) (fun _ _ => requests _) fun _ _ _ => rfl

/-! ## Along the walk -/

/-- To keep such a view allows every request, so the walk through the operations applies. -/
theorem serves (hf : OffChip f) : (Contract.keeping f).Serves := fun r _ => perform hf r

/-- To keep a view allows every refusal, since a refusal changes nothing. -/
theorem mayRefuse : (Contract.keeping f).MayRefuse := fun _ _ _ => rfl

/-- An assignment of the completion pin leaves the view, also where it is undone. -/
theorem setDonePin (hf : OffChip f) (pin : Pin) : Keeps f (Session.setDonePin pin) :=
  Obeys.setDonePin (serves hf) mayRefuse.mayConflict (fun _ _ _ hfailed => hfailed) pin

/-- A read of a table leaves the view, also where it stops halfway and does not close the table
again. -/
theorem readTable (hf : OffChip f) (c : Channel) (t : Table) (b : Bank) (length : Nat) :
    Keeps f (Session.readTable c t b length) := by
  have clock (c : Channel) (on : Bool) : Obeys (Contract.keeping f) (Session.setClock c on) :=
    .setClock (serves hf) (fun _ _ => rfl) c on
  exact Obeys.readTable (serves hf) clock c t b length (.checked mayRefuse (.checkAccess b _))

end Keeps

end Predistortion
