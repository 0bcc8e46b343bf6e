import Predistortion.Proofs.TriggerPin

/-!
# The trigger pin at the stream processor

A configuration routes its trigger pin to the input of the stream processor that has the pin's
number. If it has no trigger pin, it routes no pin to input 0. Nothing else changes the routes, and
nothing takes a pin away from the input of another one, so what an earlier configuration routed may
stay.

Main statement: over a run of accepted configurations, the trigger pin of the last one is the only
pin that is routed, exactly if a trigger pin is never exchanged for another one, nor given up for
none unless it is GPIO00 (`follows_iff_yields`). Otherwise the old pin still triggers captures, and
it does so even as the pin that shows their completion (`completion_pin_still_routed`).

The condition is the one under which a single route leaves only its own pin
(`Chip.routesOnly_route_iff`). Over a run the session remembers the pin that was routed last.
-/

namespace Predistortion

open SessionM
open Session (setConfig setDonePin routeTriggerPin)
open Capture (Config)

/-! ## Routes -/

/-- The input of the stream processor that a trigger pin is routed to. -/
def Pin.triggerSignal : Pin → UInt8
  | .digital n => UInt8.ofNat n.val
  | .unassigned => 0

/-- The route of the new pin leaves no route of the old one: the pin stays the same, or GPIO00 is
given up for no pin. -/
def Pin.YieldsTo (old new : Pin) : Prop :=
  ∀ n, old = .digital n → new = old ∨ (n.val = 0 ∧ new = .unassigned)

/-- Pins have inputs of their own, so that the route of one does not replace that of another. The
input has the number of the pin. -/
theorem Pin.triggerSignal_inj {m n : Fin pinCount} :
    (digital m).triggerSignal = (digital n).triggerSignal ↔ m = n := by
  constructor
  · intro h
    have hval := congrArg UInt8.toNat h
    have hm := m.isLt
    have hn := n.isLt
    simp only [triggerSignal, UInt8.toNat_ofNat', pinCount] at hval hm hn
    omega
  · rintro rfl
    rfl

/-- The input that no pin takes is the one of GPIO00. So to give up the trigger pin frees this input
and no other. -/
theorem Pin.triggerSignal_unassigned {n : Fin pinCount} :
    unassigned.triggerSignal = (digital n).triggerSignal ↔ n.val = 0 := by
  constructor
  · intro h
    have hval := congrArg UInt8.toNat h
    have hn := n.isLt
    simp only [triggerSignal, UInt8.toNat_ofNat', UInt8.toNat_zero, pinCount] at hval hn
    omega
  · intro h
    rw [triggerSignal, triggerSignal, h]
    rfl

namespace Chip

/-- The pin is routed to an input of the stream processor. -/
def Routes (chip : Chip) (n : Fin pinCount) : Prop :=
  ∃ signal : UInt8, chip.streamPins[signal]? = some (.digital n)

/-- This pin and no other is routed. -/
def RoutesOnly (chip : Chip) (p : Pin) : Prop := ∀ n, chip.Routes n ↔ p = .digital n

/-- No pin is routed to the input of another one. -/
def RoutesInPlace (chip : Chip) : Prop :=
  ∀ (signal : UInt8) (n : Fin pinCount), chip.streamPins[signal]? = some (.digital n) →
    signal = (Pin.digital n).triggerSignal

section route

variable {chip later : Chip} {p : Pin}
  (hroute : later.streamPins = chip.streamPins.insert p.triggerSignal p)

include hroute

/-- A new route leaves every pin at its own input, because the pin that it adds is routed to the
input with its number. -/
theorem RoutesInPlace.route (hplace : chip.RoutesInPlace) : later.RoutesInPlace := by
  intro signal n hsignal
  rw [hroute, Std.HashMap.getElem?_insert] at hsignal
  split at hsignal
  · next hsame =>
    cases hsignal
    exact (eq_of_beq hsame).symm
  · exact hplace signal n hsignal

/-- After a pin was routed, those routed before still are. The one exception is GPIO00, whose input
is taken when no pin is routed. -/
theorem routes_route_iff (hplace : chip.RoutesInPlace) (n : Fin pinCount) :
    later.Routes n ↔ p = .digital n ∨ (chip.Routes n ∧ ¬(n.val = 0 ∧ p = .unassigned)) := by
  have hget (signal : UInt8) := congrArg (·[signal]?) hroute
  simp only [Std.HashMap.getElem?_insert] at hget
  constructor
  · rintro ⟨signal, hsignal⟩
    rw [hget] at hsignal
    split at hsignal
    · exact .inl (Option.some.inj hsignal)
    · next hother =>
      refine .inr ⟨⟨signal, hsignal⟩, ?_⟩
      rintro ⟨hzero, rfl⟩
      have hfree := Pin.triggerSignal_unassigned.2 hzero
      exact hother (beq_iff_eq.2 (hfree.trans (hplace signal n hsignal).symm))
  · rintro (rfl | ⟨⟨signal, hsignal⟩, hkept⟩)
    · exact ⟨_, by rw [hget, if_pos (beq_self_eq_true _)]⟩
    · by_cases hsame : p.triggerSignal = signal
      · have hown := hsame.trans (hplace signal n hsignal)
        cases p with
        | digital m =>
          refine ⟨signal, ?_⟩
          rw [hget, hsame, if_pos (beq_self_eq_true _), Pin.triggerSignal_inj.1 hown]
        | unassigned =>
          exact absurd ⟨Pin.triggerSignal_unassigned.1 hown, rfl⟩ hkept
      · refine ⟨signal, ?_⟩
        rw [hget, if_neg (by simpa using hsame)]
        exact hsignal

/-- A route leaves only its own pin exactly if the old pin yields to it. It adds a pin and takes
none away. -/
theorem routesOnly_route_iff (hplace : chip.RoutesInPlace) {old : Pin}
    (hold : chip.RoutesOnly old) :
    later.RoutesOnly p ↔ old.YieldsTo p := by
  have hroutes := routes_route_iff hroute hplace
  constructor
  · rintro honly n rfl
    by_cases hgiven : n.val = 0 ∧ p = .unassigned
    · exact .inr hgiven
    · have hstill := (hroutes n).2 (.inr ⟨(hold n).2 rfl, hgiven⟩)
      exact .inl ((honly n).1 hstill)
  · intro hsame n
    rw [hroutes, hold]
    constructor
    · rintro (hnew | ⟨hn, hkept⟩)
      · exact hnew
      · rcases hsame n hn with heq | hgiven
        · exact heq.trans hn
        · exact absurd hgiven hkept
    · exact .inl

end route

end Chip

/-! ## Configurations -/

/-- Requests on which the session keeps no books leave the routes. A route is a request of its own
kind. -/
theorem Chip.streamPins_served (chip : Chip) {r : Request} (hplain : r.isPlain = true) :
    (chip.served r).streamPins = chip.streamPins := by
  rw [served_eq]
  show (chip.serve r).2.streamPins = chip.streamPins
  cases r with
  | command opcode payload => cases hplain
  | streamPinSet signal pin => cases hplain
  | streamStart stream =>
    have hcore := congrArg streamPins (chip.core_runStream stream)
    exact hcore
  | acquire pin feature => simp only [serve]; split <;> rfl
  | release pin feature => simp only [serve]; split <;> rfl
  | signalSet signal pin => cases signal <;> rfl
  | _ => rfl

/-- The contract to leave the trigger pin and the routes alone. -/
def routing : Contract Session := .keeping fun s => (s.triggerPin, s.chip.streamPins)

/-- All requests but the commands and the routes obey the contract. -/
theorem routing_serves : routing.Serves := fun _ hplain =>
  .request (fun s => congrArg (Prod.mk s.triggerPin) (s.chip.streamPins_served hplain))
    fun _ _ _ => rfl

/-- The session remembers the pin, and the chip routes it. If the request is refused, neither is
known. -/
theorem ends_routeTriggerPin_routes (p : Pin) (s : Session) :
    Ends (routeTriggerPin p) s
      (fun _ t => t.triggerPin = p ∧
        t.chip.streamPins = s.chip.streamPins.insert p.triggerSignal p)
      (fun _ _ => True) := by
  unfold routeTriggerPin perform
  rw [ends_bind, ends_onChip]
  refine Chip.ends_perform_of ?_ fun _ _ => trivial
  rw [ends_modify]
  refine ⟨rfl, ?_⟩
  show Chip.streamPins (s.chip.served _) = _
  rw [Chip.served_eq]
  cases p <;> rfl

/-- A configuration that is accepted has routed its trigger pin and remembers it. The steps after
the routing leave the routes alone. -/
theorem ends_setConfig_route (c : Config) (s : Session) :
    Ends (setConfig c) s
      (fun _ t => t.triggerPin = c.triggerPin ∧
        t.chip.streamPins = s.chip.streamPins.insert c.triggerPin.triggerSignal c.triggerPin)
      (fun _ _ => True) := by
  have assigned : Obeys routing (setDonePin c.donePin) :=
    .setDonePin routing_serves Keeps.mayRefuse.mayConflict (fun _ _ _ h => h) _
  unfold setConfig
  rw [ends_bind]
  refine (ends_checked_self c.check s).mono ?_ fun _ _ _ => trivial
  rintro _ t ⟨rfl, -⟩
  rw [ends_bind, ends_tracked, ends_bind]
  refine (ends_routeTriggerPin_routes c.triggerPin t).mono ?_ fun _ _ _ => trivial
  rintro _ u ⟨htrigger, hpins⟩
  rw [ends_bind]
  refine (assigned u).mono ?_ fun _ _ _ => trivial
  intro _ v hv
  refine (routing_serves _ rfl v).mono ?_ fun _ _ _ => trivial
  intro _ w hw
  obtain ⟨hwtrigger, hwpins⟩ := Prod.mk.inj (hw.trans hv)
  exact ⟨hwtrigger.trans htrigger, hwpins.trans hpins⟩

namespace Session

/-- If a configuration succeeds, the session after it is the one in which it ends. -/
theorem configured_of_ok {c : Config} {s t : Session} (h : setConfig c s = .ok () t) :
    s.configured c = t := by
  simp only [configured, h]

/-- In a run of configurations that succeeds each of them is accepted, at the state to which those
before it have led. -/
theorem exists_ok_of_prefix {configs : List Config} {s t : Session}
    (hrun : configs.forM setConfig s = .ok () t) {before : List Config} {c : Config}
    (hbefore : before ++ [c] <+: configs) :
    ∃ u, setConfig c (s.reconfigured before) = .ok () u := by
  induction configs generalizing s before with
  | nil => simp at hbefore
  | cons first rest ih =>
    obtain ⟨_, u, hfirst, hrest⟩ := exists_ok_of_bind hrun
    cases before with
    | nil =>
      obtain rfl : c = first := by simpa using hbefore
      exact ⟨u, hfirst⟩
    | cons first' before =>
      obtain ⟨rfl, hlater⟩ := List.cons_prefix_cons.1 hbefore
      have haccepted := ih hrest hlater
      rwa [← configured_of_ok hfirst] at haccepted

/-- A run of configurations that succeeds ends where configuring again and again ends. By induction
over the configurations. -/
theorem reconfigured_of_ok {configs : List Config} {s t : Session}
    (hrun : configs.forM setConfig s = .ok () t) : s.reconfigured configs = t := by
  induction configs generalizing s with
  | nil =>
    cases hrun
    rfl
  | cons first rest ih =>
    obtain ⟨_, u, hfirst, hrest⟩ := exists_ok_of_bind hrun
    show (s.configured first).reconfigured rest = t
    rw [configured_of_ok hfirst]
    exact ih hrest

/-- The chip routes at most what the session remembers. -/
structure Routed (s : Session) : Prop where
  /-- No pin is routed to the input of another one. -/
  inPlace : s.chip.RoutesInPlace
  /-- The trigger pin is the only pin that is routed. -/
  only : s.chip.RoutesOnly s.triggerPin

/-- Of the configuration's pins the trigger pin, and no other pin at all, triggers captures. -/
def Follows (s : Session) (c : Config) : Prop :=
  s.chip.RoutesOnly c.triggerPin ∧
    ∀ n, c.donePin = .digital n → c.triggerPin ≠ c.donePin → ¬s.chip.Routes n

/-- A session follows its configuration if the trigger pin of that is the only pin that is
routed. -/
theorem follows_iff {s : Session} {c : Config} :
    s.Follows c ↔ s.chip.RoutesOnly c.triggerPin := by
  refine ⟨And.left, fun honly => ⟨honly, fun n hdone hne hroutes => ?_⟩⟩
  exact hne (((honly n).1 hroutes).trans hdone.symm)

section run

variable {settings : Settings} {configs : List Config} {t : Session}
  (hrun : configs.forM setConfig (Session.start Chip.initial settings) = .ok () t)

include hrun

/-- After one more configuration of a run that succeeds, its trigger pin is the one that is
remembered, and its route stands beside those from before. -/
theorem reconfigured_route {before : List Config} {c : Config}
    (hbefore : before ++ [c] <+: configs) :
    ((Session.start Chip.initial settings).reconfigured (before ++ [c])).triggerPin =
        c.triggerPin ∧
      ((Session.start Chip.initial settings).reconfigured (before ++ [c])).chip.streamPins =
        ((Session.start Chip.initial settings).reconfigured before).chip.streamPins.insert
          c.triggerPin.triggerSignal c.triggerPin := by
  obtain ⟨u, haccepted⟩ := exists_ok_of_prefix hrun hbefore
  rw [reconfigured_snoc, configured_of_ok haccepted]
  exact (ends_setConfig_route c _).of_ok haccepted

/-- However often a session is configured, each pin is routed to its own input or not at all. By one
step for each configuration. -/
theorem inPlace_reconfigured {before : List Config} (hbefore : before <+: configs) :
    ((Session.start Chip.initial settings).reconfigured before).chip.RoutesInPlace := by
  refine foldl_keeps (I := fun s : Session => s.chip.RoutesInPlace) ?_ fun part c hpart h => ?_
  · intro signal n hsignal
    simp [Session.start, Chip.initial] at hsignal
  · have hroute := (reconfigured_route hrun (hpart.trans hbefore)).2
    rw [reconfigured_snoc] at hroute
    exact h.route hroute

/-- While each trigger pin yields to the next, the chip routes what the session remembers. The
invariant is carried from one configuration to the next. -/
theorem routed_reconfigured
    (hyields : ∀ before c c', before ++ [c, c'] <+: configs →
      c.triggerPin.YieldsTo c'.triggerPin)
    {before : List Config} (hbefore : before <+: configs) :
    ((Session.start Chip.initial settings).reconfigured before).Routed := by
  refine foldl_keeps ⟨inPlace_reconfigured hrun List.nil_prefix, ?_⟩ fun part c hpart h => ?_
  · intro n
    simp [Chip.Routes, Session.start, Chip.initial]
  · have hbefore' := hpart.trans hbefore
    obtain ⟨htrigger, hroute⟩ := reconfigured_route hrun hbefore'
    have hold : ((Session.start Chip.initial settings).reconfigured part).triggerPin.YieldsTo
        c.triggerPin := by
      rcases List.eq_nil_or_concat part with rfl | ⟨earlier, c₀, rfl⟩
      · intro n hn
        cases hn
      · rw [List.concat_eq_append] at hbefore' ⊢
        have hlast := List.prefix_append (earlier ++ [c₀]) [c]
        rw [(reconfigured_route hrun (hlast.trans hbefore')).1]
        refine hyields earlier c₀ c ?_
        simpa using hbefore'
    rw [reconfigured_snoc] at htrigger hroute
    have honly := (Chip.routesOnly_route_iff hroute h.inPlace h.only).2 hold
    rw [← htrigger] at honly
    exact ⟨h.inPlace.route hroute, honly⟩

/-- After every configuration of a run that succeeds, its trigger pin is the only pin that triggers
captures, and so its completion pin triggers none, exactly if each trigger pin is kept by the next
configuration, or is GPIO00 and given up for no pin. -/
theorem follows_iff_yields :
    (∀ before c, before ++ [c] <+: configs →
        ((Session.start Chip.initial settings).reconfigured (before ++ [c])).Follows c) ↔
      ∀ before c c', before ++ [c, c'] <+: configs → c.triggerPin.YieldsTo c'.triggerPin := by
  constructor
  · intro hfollows before c c' hbefore
    have hboth : before ++ [c] ++ [c'] <+: configs := by simpa using hbefore
    have hfirst := (List.prefix_append (before ++ [c]) [c']).trans hboth
    have hroute := (reconfigured_route hrun hboth).2
    have honly := follows_iff.1 (hfollows _ _ hboth)
    have hold := follows_iff.1 (hfollows _ _ hfirst)
    exact (Chip.routesOnly_route_iff hroute (inPlace_reconfigured hrun hfirst) hold).1 honly
  · intro hyields before c hbefore
    have hrouted := (routed_reconfigured hrun hyields hbefore).only
    rw [(reconfigured_route hrun hbefore).1] at hrouted
    exact follows_iff.2 hrouted

end run

/-- A configuration with this trigger pin, whose completion shows at GPIO05. -/
def triggeredBy (p : Pin) : Config :=
  { plainConfig ⟨0, by decide⟩ ⟨5, by decide⟩ with triggerPin := p }

/-- Configurations that give up GPIO00, and then take GPIO03. -/
def gpio0GivenUp : List Config :=
  [triggeredBy (.digital ⟨0, by decide⟩), triggeredBy .unassigned,
    triggeredBy (.digital ⟨3, by decide⟩)]

/-- The input that GPIO00 had is free when GPIO03 is taken, since it was given up for no pin in
between. -/
theorem follows_gpio0GivenUp :
    ∃ t, gpio0GivenUp.forM setConfig (Session.start Chip.initial default) = .ok () t ∧
      ∀ before c, before ++ [c] <+: gpio0GivenUp →
        ((Session.start Chip.initial default).reconfigured (before ++ [c])).Follows c := by
  have hyields : ∀ before c c', before ++ [c, c'] <+: gpio0GivenUp →
      c.triggerPin.YieldsTo c'.triggerPin := by
    intro before c c' hbefore n hn
    match before with
    | [] =>
      obtain ⟨rfl, rfl⟩ : c = triggeredBy (.digital ⟨0, by decide⟩) ∧
          c' = triggeredBy .unassigned := by
        simpa [gpio0GivenUp] using hbefore
      cases hn
      exact .inr ⟨rfl, rfl⟩
    | [_] =>
      obtain ⟨-, rfl, -⟩ : _ ∧ c = triggeredBy .unassigned ∧ _ := by
        simpa [gpio0GivenUp] using hbefore
      cases hn
    | _ :: _ :: _ =>
      have hlength := hbefore.length_le
      simp only [gpio0GivenUp, List.length_append, List.length_cons, List.length_nil] at hlength
      omega
  have hsucceeds : (match gpio0GivenUp.forM setConfig (Session.start Chip.initial default) with
    | .ok .. => true
    | .error .. => false) = true := by decide +kernel
  cases hrun : gpio0GivenUp.forM setConfig (Session.start Chip.initial default) with
  | ok _ t => exact ⟨t, rfl, (follows_iff_yields hrun).2 hyields⟩
  | error e t =>
    rw [hrun] at hsucceeds
    cases hsucceeds

/-- Once GPIO05 takes the place of GPIO03, both trigger captures, although GPIO03 shows their
completion now. -/
theorem completion_pin_still_routed :
    ∃ t, [plainConfig 3 5, plainConfig 5 3].forM setConfig (Session.start Chip.initial default) =
        .ok () t ∧
      t.chip.pins.feature (.digital 3) = .captureDone ∧ t.chip.Routes 3 ∧
        ¬t.chip.RoutesOnly (.digital 5) := by
  have hsucceeds : (match [plainConfig 3 5, plainConfig 5 3].forM setConfig
        (Session.start Chip.initial default) with
    | .ok _ t => t.chip.pins.feature (.digital 3) == .captureDone
    | .error .. => false) = true := by decide +kernel
  cases hrun : [plainConfig 3 5, plainConfig 5 3].forM setConfig
      (Session.start Chip.initial default) with
  | ok _ t =>
    rw [hrun] at hsucceeds
    have hfirst : [] ++ [plainConfig 3 5] <+: [plainConfig 3 5, plainConfig 5 3] := ⟨[_], rfl⟩
    have hboth : [plainConfig 3 5] ++ [plainConfig 5 3] <+: [plainConfig 3 5, plainConfig 5 3] :=
      List.prefix_refl _
    have hplace := inPlace_reconfigured hrun List.nil_prefix
    have hplace' := inPlace_reconfigured hrun hfirst
    have hroutes := Chip.routes_route_iff (reconfigured_route hrun hfirst).2 hplace 3
    have hroutes' := Chip.routes_route_iff (reconfigured_route hrun hboth).2 hplace' 3
    have hstill := hroutes'.2 (.inr ⟨hroutes.2 (.inl rfl), by decide⟩)
    rw [← reconfigured_of_ok hrun]
    rw [← reconfigured_of_ok hrun] at hsucceeds
    refine ⟨_, rfl, eq_of_beq hsucceeds, hstill, fun honly => ?_⟩
    exact absurd ((honly 3).1 hstill) (by decide)
  | error e t =>
    rw [hrun] at hsucceeds
    cases hsucceeds

end Session

end Predistortion
