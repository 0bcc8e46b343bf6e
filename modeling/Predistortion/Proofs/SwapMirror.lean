import Predistortion.Proofs.Surface

/-!
# The swap-mode flag

Swap mode is kept twice: in an object of the firmware and as a flag of the session. A switch writes
the object first and then the flag, and the write may fail; settings may change in between which of
the two is asked. Main statement: in every state that a session reaches, through any calls, with any
outcomes and under any faults, the flag is the one that the firmware holds, so both sources answer
alike (`swapMode_mirrored`).

To keep the two alike is a contract (`mirroring`). Only the switch writes the object, so all other
requests keep it (`Chip.swapMode_served`).
-/

namespace Predistortion

open SessionM

/-! ## The flag and the object -/

/-- Swap mode, as the firmware has it. -/
def Chip.swapMode (chip : Chip) : Bool := (chip.object Object.swapMode).byteAt 0 != 0

/-- The flag of the session is the one that the firmware holds. -/
def Session.Mirrors (s : Session) : Prop := s.swapMode = s.chip.swapMode

namespace Chip

variable (chip : Chip)

/-- Only writes of objects touch the objects. Commands and streams leave all of them. -/
theorem objects_served {r : Request} (hwrite : r.kind ≠ .objectWrite) :
    (chip.served r).objects = chip.objects := by
  rw [served_eq]
  show (chip.serve r).2.objects = chip.objects
  by_cases hcommand : r.kind = .command
  · cases r with
    | command opcode payload =>
      have hfixed := chip.fixed_takeCommand payload opcode
      exact congrArg (·.2.2.2.2) hfixed
    | _ => cases hcommand
  · have hstill := chip.still_serve hcommand hwrite
    exact congrArg (·.2.2.2.2) hstill

/-- A request that does not write the object of swap mode leaves it as it is, also if it writes
another object. -/
theorem swapMode_served {r : Request}
    (hswitch : ∀ offset data, r ≠ .objectWrite Object.swapMode offset data) :
    (chip.served r).swapMode = chip.swapMode := by
  have hobject : (chip.served r).object Object.swapMode = chip.object Object.swapMode := by
    by_cases hwrite : r.kind = .objectWrite
    · cases r with
      | objectWrite o offset data =>
        refine chip.object_served_objectWrite_of_ne (fun heq => ?_) offset data
        exact hswitch offset data (by rw [heq])
      | _ => cases hwrite
    · unfold object
      rw [chip.objects_served hwrite]
  unfold swapMode
  rw [hobject]

end Chip

/-! ## The contract -/

/-- The contract to keep the flag and the object alike. -/
def mirroring : Contract Session :=
  .ofRelation (fun s t => s.Mirrors → t.Mirrors) (fun _ => id) fun hst htu hs => htu (hst hs)

/-- A request obeys the contract if it does not write the object. What the session keeps is not
touched by any request. -/
theorem obeys_mirroring_perform {r : Request}
    (hswitch : ∀ offset data, r ≠ .objectWrite Object.swapMode offset data) :
    Obeys mirroring (perform r) :=
  .request (fun s hs => hs.trans (s.chip.swapMode_served hswitch).symm) fun _ _ _ hs => hs

/-- Whatever an operation does besides its commands obeys the contract, since none of it writes the
object. -/
theorem mirroring_hosts : mirroring.Hosts := by
  have serves : mirroring.Serves := by
    intro r hplain
    refine obeys_mirroring_perform fun offset data hr => ?_
    rw [hr] at hplain
    cases hplain
  have route (signal : UInt8) (pin : Pin) :
      Obeys mirroring (perform (.streamPinSet signal pin)) :=
    obeys_mirroring_perform fun offset data hr => nomatch hr
  refine ⟨serves, fun s _ _ => id, fun s t hchip _ hswap hs => ?_, route, fun c on => ?_⟩
  · show t.swapMode = t.chip.swapMode
    rw [hchip, hswap]
    exact hs
  · exact .setClock serves (fun _ _ => id) c on

/-- All commands obey the contract, since swap mode is not switched by a command. -/
theorem obeys_mirroring_execute (k : Command) : Obeys mirroring (execute k) := by
  refine .command (obeys_mirroring_perform ?_) (fun _ _ => obeys_mirroring_perform ?_)
    fun _ _ _ => id
  · exact fun offset data hr => nomatch hr
  · exact fun offset data hr => nomatch hr

/-- A switch that succeeds makes the flag and the object alike whatever they were; one that fails
changes neither. -/
theorem ends_setSwapMode (on : Bool) (s : Session) :
    Ends (Session.setSwapMode on) s (fun _ t => t.Mirrors) (fun _ t => s.Mirrors → t.Mirrors) := by
  unfold Session.setSwapMode perform
  rw [ends_bind, ends_onChip]
  refine Chip.ends_perform_of ?_ fun e _ hs => hs
  rw [ends_modify]
  show on = Chip.swapMode (s.chip.served _)
  unfold Chip.swapMode
  rw [Chip.object_served_objectWrite, Bytes.byteAt_overwrite]
  cases on <;> rfl

/-- The switch obeys the contract, though it is the one call that changes the object and the
flag. -/
theorem obeys_mirroring_setSwapMode (on : Bool) : Obeys mirroring (Session.setSwapMode on) :=
  fun s => (ends_setSwapMode on s).mono (fun _ _ ht _ => ht) fun _ _ ht => ht

/-! ## Runs -/

/-- What may happen to a session. -/
inductive SessionEvent where
  /-- An operation is called. -/
  | call (k : SessionCall)
  /-- The settings are replaced. -/
  | settings (settings : Settings)
  /-- Something happens to the chip that is nothing to the swap-mode object, such as an injection of
  faults. -/
  | device (change : Chip → Chip)
    (hswap : ∀ chip, (change chip).object Object.swapMode = chip.object Object.swapMode)

namespace SessionEvent

/-- A fault is injected. -/
def inject (f : Fault) : SessionEvent := .device (·.inject f) fun _ => rfl

/-- All faults are taken away. -/
def clearFaults : SessionEvent := .device (·.clearFaults) fun _ => rfl

/-- The session after an event. -/
def after (s : Session) : SessionEvent → Session
  | .call k => k.after s
  | .settings new => { s with settings := new }
  | .device change _ => { s with chip := change s.chip }

/-- The session after a run of events, from a new session and a new chip on. -/
def run (settings : Settings) (events : List SessionEvent) : Session :=
  events.foldl after (Session.start Chip.initial settings)

end SessionEvent

namespace Session.Mirrors

variable {s : Session}

/-- A new session has the flag off, and on a fresh chip the object is still empty, which is read as
off. -/
theorem start (settings : Settings) : (Session.start Chip.initial settings).Mirrors := by
  simp [Mirrors, Session.start, Chip.swapMode, Chip.object, Chip.initial, Bytes.byteAt]

/-- Whatever comes of a call, the flag and the object stay alike. It obeys the contract, which is
about both ways to end. -/
theorem call (h : s.Mirrors) (k : SessionCall) : (k.after s).Mirrors := by
  have hobeys : Obeys mirroring k.run :=
    .call mirroring_hosts (fun _ _ _ ht => ht) obeys_mirroring_setSwapMode k fun command _ =>
      obeys_mirroring_execute command
  unfold SessionCall.after
  cases hrun : k.run s with
  | ok a t => exact (hobeys s).of_ok hrun h
  | error e t => exact (hobeys s).of_error hrun h

/-- Whatever happens to a session, the flag and the object stay alike. New settings may change which
of them is asked, but neither of them. -/
theorem after (h : s.Mirrors) (event : SessionEvent) : (event.after s).Mirrors := by
  cases event with
  | call k => exact h.call k
  | settings new => exact h
  | device change hswap =>
    show s.swapMode = (change s.chip).swapMode
    unfold Chip.swapMode
    rw [hswap]
    exact h

/-- In every state that is reached the flag and the object are alike, by induction over the
events. -/
theorem run (settings : Settings) (events : List SessionEvent) :
    (SessionEvent.run settings events).Mirrors :=
  foldl_keeps (start settings) fun _ event _ h => h.after event

end Session.Mirrors

/-! ## Both sources -/

/-- The session with swap mode asked of a source. -/
def Session.askingSwap (s : Session) (source : SwapSource) : Session :=
  { s with settings := { s.settings with
      tables := { s.settings.tables with swapSource := source } } }

/-- The firmware, if it can be asked, answers what it holds. A byte that is not there counts as
zero. If a fault keeps it from answering, nothing is claimed. -/
theorem ends_isSwapMode_device (s : Session) :
    Ends Session.isSwapMode (s.askingSwap .device) (fun on _ => on = s.chip.swapMode)
      (fun _ _ => True) := by
  unfold Session.isSwapMode perform
  rw [ends_bind, ends_get]
  show Ends (_ >>= _) _ _ _
  rw [ends_bind, ends_onChip]
  refine Chip.ends_perform_of ?_ fun _ _ => trivial
  show (((s.chip.object Object.swapMode).window 0 1).byteAt 0 != 0) = s.chip.swapMode
  rw [Bytes.byteAt_window (by decide)]
  rfl

/-- In every state that a session reaches, whatever was called, whatever failed and whatever the
settings were, the flag of the session is the one that the firmware holds. If the firmware can be
asked for swap mode at all, it answers what the session answers from memory. -/
theorem swapMode_mirrored (settings : Settings) (events : List SessionEvent) :
    (SessionEvent.run settings events).Mirrors ∧
      ∀ on t, Session.isSwapMode ((SessionEvent.run settings events).askingSwap .device) =
          .ok on t →
        ∃ u, Session.isSwapMode ((SessionEvent.run settings events).askingSwap .cache) =
          .ok on u := by
  have hmirrors := Session.Mirrors.run settings events
  refine ⟨hmirrors, fun on t hask => ?_⟩
  have hanswer := (ends_isSwapMode_device _).of_ok hask
  refine ⟨(SessionEvent.run settings events).askingSwap .cache, ?_⟩
  rw [hanswer, ← hmirrors]
  rfl

/-- A switch that fails leaves both as they were. -/
example :
    let s := SessionEvent.run default
      [.call (.setSwapMode true), .inject (.timeout .objectWrite), .call (.setSwapMode false)]
    s.swapMode = true ∧ s.chip.swapMode = true := by
  intro s
  have hflag : s.swapMode = true := by decide +kernel
  exact ⟨hflag, (Session.Mirrors.run _ _).symm.trans hflag⟩

end Predistortion
