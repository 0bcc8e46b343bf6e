import Predistortion.Proofs.Interface

/-!
# What operations report

The list of calls tells afterwards what the hardware did: which requests were refused, and with
which status each command completed. A call is `Sound` for some commands if it was served and
brought no status that these flag as an error, and `Chip.Grows` says that only calls with some
property were made between two moments.

To report every failure of the hardware is a contract (`reporting`). Main statements: it hosts the
operations (`reporting_hosts`), and each command of an operation obeys it
(`obeys_reporting_execute`), as a command fails only if one of its calls is not sound
(`ends_execute_reporting`).
-/

namespace Predistortion

open SessionM

/-! ## The calls of an operation -/

namespace Call

/-- The request was refused. -/
def isRefused : Call → Bool
  | ⟨_, .error _⟩ => true
  | ⟨_, .ok _⟩ => false

/-- The status with which a command completed, if the call waited for one. -/
def status? : Call → Option UInt8
  | ⟨.statusWait .., .ok status⟩ => some status
  | _ => none

end Call

/-- A wait for the command brought a status that flags an error. -/
def Command.Flags (k : Command) (c : Call) : Prop :=
  ∃ status, c.status? = some status ∧ status &&& k.errorMask ≠ 0

/-- The hardware did its part in the call, which was made for some commands. -/
def Call.Sound (commands : List Command) (c : Call) : Prop :=
  c.isRefused = false ∧ ∀ k ∈ commands, ¬k.Flags c

/-- Only what a wait brings can flag an error. Any other call is sound if it was served. -/
theorem Call.sound_of_kind_ne {c : Call} (hkind : c.request.kind ≠ .statusWait)
    (hserved : c.isRefused = false) (commands : List Command) : c.Sound commands := by
  refine ⟨hserved, ?_⟩
  rintro k - ⟨status, hstatus, -⟩
  obtain ⟨r, outcome⟩ := c
  cases r with
  | statusWait opcode timeoutUs intervalUs => exact hkind rfl
  | _ => cases hstatus

namespace Chip

/-- The calls since an earlier moment, newest first. -/
def callsSince (later chip : Chip) : List Call :=
  later.calls.take (later.calls.length - chip.calls.length)

/-- The calls since a moment are those that were put before the list of that moment. -/
theorem callsSince_of_eq {later chip : Chip} {made : List Call}
    (h : later.calls = made ++ chip.calls) : later.callsSince chip = made := by
  simp [callsSince, h]

/-- Some calls were made since, all with a property. -/
def Grows (P : Call → Prop) (chip later : Chip) : Prop :=
  ∃ made, later.calls = made ++ chip.calls ∧ ∀ c ∈ made, P c

namespace Grows

variable {P Q : Call → Prop} {chip mid later : Chip}

/-- No calls were made between a moment and itself. -/
theorem refl (P : Call → Prop) (chip : Chip) : Grows P chip chip := ⟨[], rfl, by simp⟩

/-- The calls of two stretches are made one after the other, and have the property if both have. -/
theorem trans (h : Grows P chip mid) (h' : Grows P mid later) : Grows P chip later := by
  obtain ⟨made, hmade, hP⟩ := h
  obtain ⟨made', hmade', hP'⟩ := h'
  refine ⟨made' ++ made, by rw [hmade', hmade, List.append_assoc], fun c hc => ?_⟩
  rcases List.mem_append.1 hc with hc | hc
  · exact hP' c hc
  · exact hP c hc

/-- What follows from the property is known of the calls as well. -/
theorem mono (h : Grows P chip later) (hPQ : ∀ c, P c → Q c) : Grows Q chip later := by
  obtain ⟨made, hmade, hP⟩ := h
  exact ⟨made, hmade, fun c hc => hPQ c (hP c hc)⟩

/-- The calls of two stretches in turn, with the later stretch first as the newest calls are. A call
that went wrong in either is one of them. -/
theorem callsSince_append (h : Grows P chip mid) (h' : Grows Q mid later) :
    later.callsSince chip = later.callsSince mid ++ mid.callsSince chip := by
  obtain ⟨made, hmade, -⟩ := h
  obtain ⟨made', hmade', -⟩ := h'
  have hlater : later.calls = (made' ++ made) ++ chip.calls := by
    rw [hmade', hmade, List.append_assoc]
  rw [callsSince_of_eq hlater, callsSince_of_eq hmade', callsSince_of_eq hmade]

/-- What is known of the calls that were made, used for one of them. -/
theorem of_mem (h : Grows P chip later) {c : Call} (hc : c ∈ later.callsSince chip) : P c := by
  obtain ⟨made, hmade, hP⟩ := h
  rw [callsSince_of_eq hmade] at hc
  exact hP c hc

/-- More is known of the calls that were made, if it follows for each of them from what is known
already. -/
theorem of_forall_mem (h : Grows P chip later) (hQ : ∀ c ∈ later.callsSince chip, P c → Q c) :
    Grows Q chip later := by
  obtain ⟨made, hmade, hP⟩ := h
  rw [callsSince_of_eq hmade] at hQ
  exact ⟨made, hmade, fun c hc => hQ c hc (hP c hc)⟩

/-- A request that is served is one call, with the answer of the chip. -/
theorem served {r : Request} (h : P ⟨r, .ok (chip.serve r).1⟩) : Grows P chip (chip.served r) :=
  ⟨[_], calls_served chip r, by simpa using h⟩

/-- A request that is refused is one call, with the error. -/
theorem refused {r : Request} {e : TransportError} (h : P ⟨r, .error e⟩) :
    Grows P chip (chip.refused r e) :=
  ⟨[_], rfl, by simpa using h⟩

end Grows

end Chip

/-- The contract to make only calls with a property. -/
def growing (P : Call → Prop) : Contract Session :=
  .ofRelation (fun s t => s.chip.Grows P t.chip) (fun s => .refl P s.chip) fun h h' => h.trans h'

/-- A request obeys the contract if the call that it makes has the property however it ends. -/
theorem obeys_growing_perform {P : Call → Prop} {r : Request} (h : ∀ outcome, P ⟨r, outcome⟩) :
    Obeys (growing P) (perform r) :=
  .request (fun _ => .served (h _)) fun _ _ _ => .refused (h _)

/-! ## Reporting -/

/-- The contract to report every failure of the hardware: a success, or an error that blames
something else, means that the hardware did its part in all calls. -/
def reporting (commands : List Command) : Contract Session where
  done s t := s.chip.Grows (Call.Sound commands) t.chip
  failed s e t := s.chip.Grows (fun c => e.isHardwareFailure = false → c.Sound commands) t.chip
  refl s := .refl _ s.chip
  trans h h' := h.trans h'
  fail h h' := (h.mono fun _ hc _ => hc).trans h'
  late h h' := h.trans (h'.mono fun _ hc _ => hc)

/-- Every error of the hardware is a report. -/
theorem reporting_failed_of_hardware {commands : List Command} {s t : Session} {e : Error}
    (he : e.isHardwareFailure = true) (h : s.chip.Grows (fun _ => True) t.chip) :
    (reporting commands).failed s e t :=
  h.mono fun _ _ hsound => absurd (he.symm.trans hsound) (by simp)

/-- Whatever an operation does besides its commands is reported. A refusal becomes an error of the
hardware, and a request that is no wait brings no status. -/
theorem reporting_hosts (commands : List Command) : (reporting commands).Hosts := by
  have serves {r : Request} (hr : r.kind ≠ .statusWait) :
      Obeys (reporting commands) (perform r) := by
    refine .request (fun s => ?_) fun s e _ => ?_
    · exact .served (Call.sound_of_kind_ne hr rfl commands)
    · refine reporting_failed_of_hardware (by simp) ?_
      exact .refused trivial
  have plain : (reporting commands).Serves := fun r hr =>
    serves (Request.ne_statusWait_of_isPlain hr)
  refine ⟨plain, fun s e _ => .refl _ s.chip, fun s t hchip _ _ => ?_,
    fun _ _ => serves (fun hkind => nomatch hkind), fun c on => ?_⟩
  · show s.chip.Grows _ t.chip
    rw [hchip]
    exact .refl _ s.chip
  · exact .setClock plain (fun s us => reporting_failed_of_hardware rfl (.refl _ s.chip)) c on

/-- The commands of an operation flag errors by the same bits, so a wait for one of them is judged
alike for all. -/
theorem Operation.errorMask_eq {o : Operation} {k k' : Command} (hk : k ∈ o.commands)
    (hk' : k' ∈ o.commands) : k.errorMask = k'.errorMask := by
  cases o with
  | pollDone =>
    simp only [commands, List.mem_cons, List.not_mem_nil, or_false] at hk hk'
    rcases hk with rfl | rfl <;> rcases hk' with rfl | rfl <;> rfl
  | trigger | clearDone | readDone | data | status =>
    simp only [commands, List.mem_singleton] at hk hk'
    rw [hk, hk']
  | _ => cases hk

/-- A command fails only if the hardware does, and then its calls show it: a refusal, or a status
that flags an error. -/
theorem ends_execute_reporting {o : Operation} {k : Command} (hk : k ∈ o.commands) (s : Session) :
    Ends (execute k) s (fun _ t => s.chip.Grows (Call.Sound o.commands) t.chip)
      (fun e t => e.isHardwareFailure = true ∧ s.chip.Grows (fun _ => True) t.chip ∧
        ∃ c ∈ t.chip.callsSince s.chip, ¬c.Sound o.commands) := by
  -- a call that is not sound, made after some others
  have failure {chip later : Chip} {c : Call} (hgrows : s.chip.Grows (fun _ => True) chip)
      (hcalls : later.calls = [c] ++ chip.calls) (hc : ¬c.Sound o.commands) :
      s.chip.Grows (fun _ => True) later ∧
        ∃ c ∈ later.callsSince s.chip, ¬c.Sound o.commands := by
    have hlast : chip.Grows (fun _ => True) later := ⟨[c], hcalls, fun _ _ => trivial⟩
    refine ⟨hgrows.trans hlast, c, ?_, hc⟩
    rw [hgrows.callsSince_append hlast, Chip.callsSince_of_eq hcalls]
    simp
  have refused (r : Request) (e : TransportError) : ¬Call.Sound o.commands ⟨r, .error e⟩ :=
    fun hsound => by cases hsound.1
  have sent : Call.Sound o.commands ⟨.command k.opcode k.payload, .ok ()⟩ := by
    refine ⟨rfl, ?_⟩
    rintro k' - ⟨status, hstatus, -⟩
    cases hstatus
  unfold execute perform
  rw [ends_bind, ends_get, ends_bind, ends_onChip]
  refine Chip.ends_perform_of ?_ fun e _ => ?_
  · have hsent : s.chip.Grows (Call.Sound o.commands) _ := .served sent
    rw [ends_bind, ends_onChip]
    refine Chip.ends_perform_of ?_ fun e _ => ?_
    · rw [ends_ite]
      refine ⟨fun hflags => ?_, fun hflags => ?_⟩
      · refine ⟨rfl, failure (hsent.mono fun _ _ => trivial) (Chip.calls_served _ _) ?_⟩
        exact fun hsound => hsound.2 k hk ⟨_, rfl, hflags⟩
      · refine hsent.trans (.served ⟨rfl, ?_⟩)
        rintro k' hk' ⟨status, hstatus, hflags'⟩
        cases hstatus
        rw [Operation.errorMask_eq hk' hk] at hflags'
        exact hflags hflags'
    · refine ⟨by simp, failure (hsent.mono fun _ _ => trivial) rfl (refused _ e)⟩
  · exact ⟨by simp, failure (.refl _ s.chip) rfl (refused _ e)⟩

/-- A command obeys the contract, since each of its failures is an error of the hardware and so is a
report. -/
theorem obeys_reporting_execute {o : Operation} {k : Command} (hk : k ∈ o.commands) :
    Obeys (reporting o.commands) (execute k) := by
  intro s
  refine (ends_execute_reporting hk s).mono (fun _ _ ht => ht) fun e t ht => ?_
  exact reporting_failed_of_hardware ht.1 ht.2.1

end Predistortion
