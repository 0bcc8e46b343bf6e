import Predistortion.Proofs.Footprint
import Predistortion.Session.Pins

/-!
# Outcomes of computations

A computation of this library keeps the state that it reached also when it fails, so a statement
about it has to speak of both ways to end. `Ends m s done failed` says that `m`, started in `s`,
either succeeds in a way that `done` allows or fails in a way that `failed` allows. The rules of the
first sections follow the program text: one for each way in which computations of sessions, of
rewirings and of the chip are put together.

`Keeps f m` is the special case that no outcome of `m` changes the view `f` of the state. Such facts
are proved along the text of `m` by `Keeps.bind`, and most of them only need that `f` does not look
at the chip (`OffChip`).

A request to the chip is either served or refused (`ends_perform`). A refusal needs a fault, and no
request changes the faults (`faults_served`). What every step of a run keeps, the run keeps
(`foldl_keeps`).
-/

namespace Predistortion

variable {ε σ α β γ : Type}

/-! ## How a computation ends -/

/-- Started in `s`, the computation succeeds with an answer and a state that `done` allows, or it
fails with an error and a state that `failed` allows. -/
def Ends (m : EStateM ε σ α) (s : σ) (done : α → σ → Prop) (failed : ε → σ → Prop) : Prop :=
  match m s with
  | .ok a t => done a t
  | .error e t => failed e t

section rules

variable {s : σ} {done : α → σ → Prop} {failed : ε → σ → Prop}

/-- What an outcome says about a success that is known. The other way to end has no part in it. -/
theorem Ends.of_ok {m : EStateM ε σ α} (h : Ends m s done failed) {a : α} {t : σ}
    (hrun : m s = .ok a t) : done a t := by
  unfold Ends at h
  rwa [hrun] at h

/-- What an outcome says about a failure that is known, in the same way. -/
theorem Ends.of_error {m : EStateM ε σ α} (h : Ends m s done failed) {e : ε} {t : σ}
    (hrun : m s = .error e t) : failed e t := by
  unfold Ends at h
  rwa [hrun] at h

/-- Every computation ends as it ends. This is where a statement about the run itself comes from. -/
theorem ends_self (m : EStateM ε σ α) (s : σ) :
    Ends m s (fun a t => m s = .ok a t) (fun e t => m s = .error e t) := by
  unfold Ends
  split
  · next h => exact h
  · next h => exact h

/-- A computation that cannot fail succeeds. So statements with this second half say that an answer
comes. -/
theorem Ends.exists_ok {m : EStateM ε σ α} (h : Ends m s done fun _ _ => False) :
    ∃ a t, m s = .ok a t ∧ done a t := by
  cases hrun : m s with
  | ok a t => exact ⟨a, t, rfl, h.of_ok hrun⟩
  | error e t => exact (h.of_error hrun).elim

/-- Weaker demands on both outcomes. Nearly every proof about a computation ends with this step. -/
theorem Ends.mono {m : EStateM ε σ α} {done' : α → σ → Prop} {failed' : ε → σ → Prop}
    (h : Ends m s done failed) (hdone : ∀ a t, done a t → done' a t)
    (hfailed : ∀ e t, failed e t → failed' e t) : Ends m s done' failed' := by
  unfold Ends at h ⊢
  split
  · next hrun => rw [hrun] at h; exact hdone _ _ h
  · next hrun => rw [hrun] at h; exact hfailed _ _ h

/-- Two statements about the same run hold together, so that they can be proved one by one. -/
theorem Ends.and {m : EStateM ε σ α} {done' : α → σ → Prop} {failed' : ε → σ → Prop}
    (h : Ends m s done failed) (h' : Ends m s done' failed') :
    Ends m s (fun a t => done a t ∧ done' a t) (fun e t => failed e t ∧ failed' e t) := by
  unfold Ends at h h' ⊢
  cases hrun : m s with
  | ok a t => rw [hrun] at h h'; exact ⟨h, h'⟩
  | error e t => rw [hrun] at h h'; exact ⟨h, h'⟩

/-- A computation that only answers leaves the state as it is. -/
@[simp] theorem ends_pure {a : α} :
    Ends (pure a : EStateM ε σ α) s done failed ↔ done a s := Iff.rfl

/-- A computation that only fails keeps the state that it had reached. -/
@[simp] theorem ends_throw {e : ε} :
    Ends (throw e : EStateM ε σ α) s done failed ↔ failed e s := Iff.rfl

/-- To look at the state answers it and changes nothing. -/
@[simp] theorem ends_get {done : σ → σ → Prop} :
    Ends (get : EStateM ε σ σ) s done failed ↔ done s s := Iff.rfl

/-- To change the state succeeds in the state that is changed. -/
@[simp] theorem ends_modify {f : σ → σ} {done : PUnit → σ → Prop} :
    Ends (modify f : EStateM ε σ PUnit) s done failed ↔ done ⟨⟩ (f s) := Iff.rfl

/-- Of two computations in turn, the second one starts where the first succeeds. If the first one
fails, the whole fails there and then. -/
@[simp] theorem ends_bind {m : EStateM ε σ α} {k : α → EStateM ε σ β} {done : β → σ → Prop} :
    Ends (m >>= k) s done failed ↔ Ends m s (fun a t => Ends (k a) t done failed) failed := by
  unfold Ends
  simp only [bind, EStateM.bind]
  cases m s <;> rfl

/-- A value or an error that was found beforehand is passed on in the same state. -/
theorem ends_ofExcept {x : Except ε α} :
    Ends (ofExcept x : EStateM ε σ α) s done failed ↔
      match x with
      | .ok a => done a s
      | .error e => failed e s := by
  cases x <;> rfl

/-- A choice ends as the branch that is taken. Stated with both branches, so that the rule can be
applied before it is known which one it is. -/
theorem ends_ite {c : Prop} [Decidable c] {m n : EStateM ε σ α} :
    Ends (if c then m else n) s done failed ↔
      (c → Ends m s done failed) ∧ (¬c → Ends n s done failed) := by
  split
  · next h => simp [h]
  · next h => simp [h]

/-- A success of two computations in turn is a success of each. A run that is known is taken apart
by this. -/
theorem exists_ok_of_bind {m : EStateM ε σ α} {k : α → EStateM ε σ β} {b : β} {t : σ}
    (h : (m >>= k) s = .ok b t) : ∃ a u, m s = .ok a u ∧ k a u = .ok b t := by
  simp only [bind, EStateM.bind] at h
  cases hm : m s with
  | ok a u =>
    rw [hm] at h
    exact ⟨a, u, rfl, h⟩
  | error e u =>
    rw [hm] at h
    cases h

/-- A check that succeeds gives what it found and changes nothing, so the run goes on from the same
state. -/
theorem eq_ok_of_ofExcept {x : Except ε α} {a : α} {t : σ}
    (h : (ofExcept x : EStateM ε σ α) s = .ok a t) : x = .ok a ∧ t = s := by
  cases x with
  | ok _ =>
    cases h
    exact ⟨rfl, rfl⟩
  | error _ => cases h

end rules

/-! ## The building blocks of sessions and rewirings -/

section blocks

variable {s : Session} {done : α → Session → Prop} {failed : Error → Session → Prop}

/-- A step of the chip replaces the chip of the session and nothing else. Its errors are passed on
as those of the transport. -/
@[simp] theorem ends_onChip {m : ChipM α} :
    Ends (SessionM.onChip m) s done failed ↔
      Ends m s.chip (fun a chip => done a { s with chip })
        (fun e chip => failed (.ofTransport e) { s with chip }) := by
  unfold Ends SessionM.onChip
  cases m s.chip <;> rfl

/-- A computation that is attempted never fails: its error becomes the answer, and the changes that
it made stay. -/
@[simp] theorem ends_attempt {m : SessionM α} {done : Except Error α → Session → Prop} :
    Ends (SessionM.attempt m) s done failed ↔
      Ends m s (fun a t => done (.ok a) t) (fun e t => done (.error e) t) := by
  unfold Ends SessionM.attempt
  cases m s <;> rfl

/-- A range check fails with what it finds wrong, if range checks are on. While they are off it is
as if it were not there. -/
theorem ends_checked {check : Except Error Unit} {done : Unit → Session → Prop} :
    Ends (SessionM.checked check) s done failed ↔
      if s.rangeCheck then
        match check with
        | .ok () => done () s
        | .error e => failed e s
      else done () s := by
  unfold SessionM.checked
  rw [ends_bind, ends_get]
  split
  · cases check <;> rfl
  · rfl

/-- A range check changes nothing. It succeeds if it is off or finds nothing wrong. -/
theorem ends_checked_self (check : Except Error Unit) (s : Session) :
    Ends (SessionM.checked check) s
      (fun _ t => t = s ∧ (s.rangeCheck = true → check = .ok ()))
      (fun e t => t = s ∧ s.rangeCheck = true ∧ check = .error e) := by
  rw [ends_checked]
  split
  · next hon =>
    cases check with
    | ok _ => exact ⟨rfl, fun _ => rfl⟩
    | error e => exact ⟨rfl, hon, rfl⟩
  · next hoff => exact ⟨rfl, fun hon => absurd hon hoff⟩

/-- A rewiring that succeeds keeps its changes, and one that fails is rolled back. -/
@[simp] theorem ends_rewire {m : RewireM α} :
    Ends (Session.rewire m) s done failed ↔
      Ends m ⟨s.chip, []⟩ (fun a r => done a { s with chip := r.chip })
        (fun e r => failed e { s with chip := (r.log.rollback r.chip).2 }) := by
  unfold Ends Session.rewire
  cases m ⟨s.chip, []⟩ <;> rfl

end blocks

section rewiring

variable {r : Rewiring} {done : α → Rewiring → Prop} {failed : Error → Rewiring → Prop}

/-- A step of the chip within a rewiring leaves the log alone. -/
@[simp] theorem ends_rewiring_onChip {m : ChipM α} :
    Ends (RewireM.onChip m) r done failed ↔
      Ends m r.chip (fun a chip => done a { r with chip })
        (fun e chip => failed (.ofTransport e) { r with chip }) := by
  unfold Ends RewireM.onChip
  cases m r.chip <;> rfl

/-- To note how a step is undone changes the log alone, at whose head the latest step stands. -/
@[simp] theorem ends_note {step : UndoStep} {done : Unit → Rewiring → Prop} :
    Ends (RewireM.note step) r done failed ↔ done () { r with log := step :: r.log } := Iff.rfl

end rewiring

/-! ## Views that no outcome changes -/

/-- No outcome of the computation changes the view `f` of the state. -/
def Keeps (f : σ → γ) (m : EStateM ε σ α) : Prop :=
  ∀ s, Ends m s (fun _ t => f t = f s) (fun _ t => f t = f s)

namespace Keeps

variable {f : σ → γ}

/-- To answer changes nothing. -/
theorem pure (a : α) : Keeps f (pure a : EStateM ε σ α) := fun _ => rfl

/-- To fail changes nothing. -/
theorem throw (e : ε) : Keeps f (throw e : EStateM ε σ α) := fun _ => rfl

/-- To look at the state changes nothing. -/
theorem get {f : σ → γ} : Keeps f (get : EStateM ε σ σ) := fun _ => rfl

/-- To pass on a value or an error changes nothing. -/
theorem ofExcept (x : Except ε α) : Keeps f (ofExcept x : EStateM ε σ α) := by
  intro s
  cases x <;> rfl

/-- Two computations in turn keep what both keep. -/
theorem bind {m : EStateM ε σ α} {k : α → EStateM ε σ β} (hm : Keeps f m)
    (hk : ∀ a, Keeps f (k a)) : Keeps f (m >>= k) := by
  intro s
  rw [ends_bind]
  refine (hm s).mono (fun a t ht => ?_) (fun _ _ ht => ht)
  exact (hk a t).mono (fun _ _ h => h.trans ht) (fun _ _ h => h.trans ht)

/-- A choice keeps what both of its branches keep. -/
theorem ite {c : Prop} [Decidable c] {m n : EStateM ε σ α} (hm : Keeps f m) (hn : Keeps f n) :
    Keeps f (if c then m else n) := by
  split
  · exact hm
  · exact hn

end Keeps

/-! ## Requests to the chip -/

namespace Chip

/-- The chip after a request that it served. -/
def served (chip : Chip) (r : Request) : Chip :=
  ((chip.serve r).2.recordJournal r).recordCall ⟨r, .ok (chip.serve r).1⟩

/-- The chip after a request that it refused: only the list of calls has grown. -/
def refused (chip : Chip) (r : Request) (e : TransportError) : Chip :=
  chip.recordCall ⟨r, .error e⟩

/-- A request that is refused leaves the faults as they are. -/
@[simp] theorem faults_refused (chip : Chip) (r : Request) (e : TransportError) :
    (chip.refused r e).faults = chip.faults := rfl

/-- A request that is refused leaves the pins as they are, because the chip did not get to see
it. -/
@[simp] theorem pins_refused (chip : Chip) (r : Request) (e : TransportError) :
    (chip.refused r e).pins = chip.pins := rfl

/-- To serve a request puts it into the lists of calls and, maybe, of transactions. -/
theorem served_eq (chip : Chip) (r : Request) :
    chip.served r = { (chip.serve r).2 with
      calls := ⟨r, .ok (chip.serve r).1⟩ :: chip.calls
      journal := (chip.served r).journal } := by
  have hcalls : (chip.serve r).2.calls = chip.calls := congrArg (·.2.1) (chip.permanent_serve r)
  unfold served recordJournal recordCall
  split <;> simp only [hcalls]

/-- To serve a request that only asks changes nothing else. The lists are all that tells that it was
made. -/
theorem served_of_isRead (chip : Chip) {r : Request} (h : r.isRead = true) :
    chip.served r = { chip with
      calls := ⟨r, .ok (chip.serve r).1⟩ :: chip.calls
      journal := if r.isTransaction then r :: chip.journal else chip.journal } := by
  unfold served recordJournal recordCall
  rw [chip.serve_of_isRead h]
  split <;> rfl

/-- To count a request and to note it in the journal does not touch the pins. What it does to them
is what serving it does. -/
theorem pins_served (chip : Chip) (r : Request) :
    (chip.served r).pins = (chip.serve r).2.pins := by rw [served_eq]

/-- The object after a write to it is the old one with the data put over it, and it grows if it has
to. -/
theorem object_served_objectWrite (chip : Chip) (o : UInt8) (offset : UInt16) (data : Bytes) :
    (chip.served (.objectWrite o offset data)).object o =
      (chip.object o).overwrite offset.toNat data := by
  rw [served_eq]
  exact Std.HashMap.getD_insert_self

/-- A write of one object leaves the others, so that objects are independent of one another. -/
theorem object_served_objectWrite_of_ne (chip : Chip) {o o' : UInt8} (h : o ≠ o')
    (offset : UInt16) (data : Bytes) :
    (chip.served (.objectWrite o offset data)).object o' = chip.object o' := by
  rw [served_eq]
  show (chip.objects.insert o _).getD o' [] = chip.objects.getD o' []
  rw [Std.HashMap.getD_insert, if_neg (by simpa using h)]

/-- Every request that is served is put into the list of calls. -/
theorem calls_served (chip : Chip) (r : Request) :
    (chip.served r).calls = ⟨r, .ok (chip.serve r).1⟩ :: chip.calls := by rw [served_eq]

/-- No request changes the faults. They are injected from outside and stay until they are taken
away. -/
@[simp] theorem faults_served (chip : Chip) (r : Request) :
    (chip.served r).faults = chip.faults := by
  rw [served_eq]
  exact congrArg (·.1) (chip.permanent_serve r)

/-- A request is served or refused, and which of them it is the faults decide. -/
theorem ends_perform {r : Request} {chip : Chip} {done : r.Reply → Chip → Prop}
    {failed : TransportError → Chip → Prop} :
    Ends (perform r) chip done failed ↔
      match chip.refusal? r with
      | some e => failed e (chip.refused r e)
      | none => done (chip.serve r).1 (chip.served r) := by
  unfold Ends
  cases h : chip.refusal? r with
  | none => rw [perform_of_not_refusal h]; rfl
  | some e => rw [perform_of_refusal h]; rfl

/-- To treat a request it is enough to treat both ways to end; a refusal comes from a fault. Proofs
about single requests start with this. -/
theorem ends_perform_of {r : Request} {chip : Chip} {done : r.Reply → Chip → Prop}
    {failed : TransportError → Chip → Prop} (hserved : done (chip.serve r).1 (chip.served r))
    (hrefused : ∀ e, chip.faults ≠ [] → failed e (chip.refused r e)) :
    Ends (perform r) chip done failed := by
  rw [ends_perform]
  cases h : chip.refusal? r with
  | none => exact hserved
  | some e =>
    refine hrefused e fun hfaults => ?_
    rw [refusal?_of_no_faults hfaults] at h
    cases h

end Chip

/-- A request without faults is served. Statements about what calls do start from this one. -/
theorem ends_perform_of_no_faults {q : Request} {s : Session} (hfaults : s.chip.faults = [])
    {done : q.Reply → Session → Prop} {failed : Error → Session → Prop}
    (hserved : done (s.chip.serve q).1 { s with chip := s.chip.served q }) :
    Ends (SessionM.perform q) s done failed := by
  unfold SessionM.perform
  rw [ends_onChip]
  exact Chip.ends_perform_of hserved fun e hne => absurd hfaults hne

/-- A request in the course of a change of pins is served or refused as any other, and the log stays
as it is. -/
theorem ends_rewiring_perform {q : Request} {r : Rewiring} {done : q.Reply → Rewiring → Prop}
    {failed : Error → Rewiring → Prop}
    (hserved : done (r.chip.serve q).1 { r with chip := r.chip.served q })
    (hrefused : ∀ e, r.chip.faults ≠ [] →
      failed (.ofTransport e) { r with chip := r.chip.refused q e }) :
    Ends (RewireM.perform q) r done failed := by
  unfold RewireM.perform
  rw [ends_rewiring_onChip]
  exact Chip.ends_perform_of hserved hrefused

/-! ## Runs -/

/-- A run of steps keeps what each of its steps keeps at the point where it is made. The step may
use what the steps before it were, as a hypothesis about a run often says. -/
theorem foldl_keeps {f : σ → α → σ} {I : σ → Prop} {steps : List α} {s : σ} (hs : I s)
    (hstep : ∀ before a, before ++ [a] <+: steps → I (before.foldl f s) →
      I (f (before.foldl f s) a)) :
    I (steps.foldl f s) := by
  induction steps generalizing s with
  | nil => exact hs
  | cons a rest ih =>
    refine ih (hstep [] a ⟨rest, rfl⟩ hs) fun before a' hbefore => ?_
    exact hstep (a :: before) a' (List.cons_prefix_cons.2 ⟨rfl, hbefore⟩)

end Predistortion
