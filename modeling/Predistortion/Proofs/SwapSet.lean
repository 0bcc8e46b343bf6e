import Predistortion.Actuator.Swap

/-!
# Accesses inside a table and swap-mode sets

What the two checks of a table write come to. The check of an access depends on its length and on
where it ends (`Table.checkAccess_eq_verdict`), and the access is accepted exactly if it is not
empty and ends inside the table (`Table.checkAccess_eq_ok`). A swap-mode set is accepted exactly if
its bank is an active one, its last entry is unused, and no payload is too long
(`SwapSet.check_eq_ok`).

Main statement: a set that is accepted as a whole has only payloads that are accepted one by one,
at the active bank and at the holding bank (`SwapSet.checkAccess_of_check`), since what starts at
the active bank ends before the holding bank (`Compander.active_end_le`).
-/

namespace Predistortion

variable {α : Type}

/-- A run of checks succeeds exactly if each of them does, since a check that passes leaves nothing
behind. -/
theorem forM_eq_ok {f : α → Except Error Unit} {l : List α} :
    l.forM f = .ok () ↔ ∀ a ∈ l, f a = .ok () := by
  induction l with
  | nil => simp [pure, Except.pure]
  | cons a rest ih =>
    have hcons : (a :: rest).forM f = f a >>= fun _ => rest.forM f := rfl
    rw [hcons, List.forall_mem_cons, ← ih]
    cases f a with
    | ok _ => simp [bind, Except.bind]
    | error e => simp [bind, Except.bind]

/-! ## Accesses -/

namespace Table

/-- What the check of an access finds, given the end of the access. -/
def verdict (b : Bank) (length : UInt64) (stop : Nat) : Except Error Unit :=
  if length.toNat = 0 then
    .error (.missing "lutData")
  else if bytes < stop then
    .error (.invalid "lutDataSize" (toString length.toNat)
      (s!"{b.label} access would end at byte {stop}, " ++ s!"past the {bytes}-byte LUT"))
  else
    .ok ()

/-- An access is accepted exactly if it is not empty and its end is not beyond the table. In which
of two ways it is refused does not matter here. -/
theorem verdict_eq_ok {b : Bank} {length : UInt64} {stop : Nat} :
    verdict b length stop = .ok () ↔ length.toNat ≠ 0 ∧ stop ≤ bytes := by
  unfold verdict
  by_cases hempty : length.toNat = 0
  · simp [hempty]
  · by_cases hfits : stop ≤ bytes
    · simp [hempty, hfits, Nat.not_lt.2 hfits]
    · simp [hempty, hfits, Nat.not_le.1 hfits]

/-- The end is computed in a machine word, and what the check finds depends on what is left of it
there. -/
theorem checkAccess_eq_verdict (b : Bank) (length : UInt64) :
    checkAccess b length =
      verdict b length ((b.index * bankBytes + length.toNat) % 0x10000000000000000) := by
  let stop := UInt64.ofNat b.index * UInt64.ofNat bankBytes + length
  have hstart : (UInt64.ofNat b.index * UInt64.ofNat bankBytes).toNat = b.index * bankBytes := by
    cases b <;> rfl
  have hstop : stop.toNat = (b.index * bankBytes + length.toNat) % 0x10000000000000000 := by
    rw [UInt64.toNat_add, hstart]
  have hempty : length = 0 ↔ length.toNat = 0 := by
    rw [← UInt64.toNat_inj]
    rfl
  have hbeyond : stop > UInt64.ofNat bytes ↔ bytes < stop.toNat := by
    rw [gt_iff_lt, UInt64.lt_iff_toNat_lt]
    rfl
  rw [← hstop]
  unfold checkAccess verdict
  by_cases hzero : length.toNat = 0
  · rw [if_pos (hempty.2 hzero), if_pos hzero]
  · rw [if_neg (mt hempty.1 hzero), if_neg hzero]
    exact ite_congr (propext hbeyond) (fun _ => rfl) (fun _ => rfl)

/-- An access whose end fits into a machine word is accepted exactly if it is not empty and ends
inside the table. -/
theorem checkAccess_eq_ok_of_end_lt {b : Bank} {length : UInt64}
    (hend : b.index * bankBytes + length.toNat < 0x10000000000000000) :
    checkAccess b length = .ok () ↔
      length.toNat ≠ 0 ∧ b.index * bankBytes + length.toNat ≤ bytes := by
  rw [checkAccess_eq_verdict, Nat.mod_eq_of_lt hend, verdict_eq_ok]

/-- The end of an access of a length that a buffer can have always fits. -/
theorem checkAccess_eq_ok {b : Bank} {length : UInt64}
    (hbuffer : length.toNat < 0x8000000000000000) :
    checkAccess b length = .ok () ↔
      length.toNat ≠ 0 ∧ b.index * bankBytes + length.toNat ≤ bytes := by
  have hinside : b.index * bankBytes ≤ 3072 := by cases b <;> decide
  exact checkAccess_eq_ok_of_end_lt (by omega)

/-- For the length of a byte string. A string that is longer than any buffer ends beyond the table
as well. -/
theorem checkAccess_machineLength {b : Bank} {data : Bytes} :
    checkAccess b data.machineLength = .ok () ↔
      data ≠ [] ∧ b.index * bankBytes + data.length ≤ bytes := by
  have hlength : data.machineLength.toNat = min data.length 0x7FFFFFFFFFFFFFFF := by
    unfold Bytes.machineLength
    rw [UInt64.toNat_ofNat_of_lt']
    show _ < 2 ^ 64
    omega
  have hempty : data ≠ [] ↔ data.length ≠ 0 := not_congr List.length_eq_zero_iff.symm
  rw [checkAccess_eq_ok (by omega), hlength, hempty]
  unfold bytes
  omega

end Table

/-! ## Banks in swap mode -/

namespace Compander

variable {c : Compander} {b : Bank}

/-- What starts at an active bank and is not too long ends before the holding bank. -/
theorem active_end_le (h : SwapSet.isActiveBank c b = true) :
    b.index * Table.bankBytes + c.maxSwapBytes ≤ c.holdingBank.index * Table.bankBytes := by
  cases c <;> cases b <;> first | decide | cases h

/-- What starts at the holding bank and is as long as it may be ends where the table does. -/
theorem holding_end (c : Compander) :
    c.holdingBank.index * Table.bankBytes + c.maxSwapBytes = Table.bytes := by
  cases c <;> rfl

end Compander

/-! ## Sets of payloads -/

namespace SwapSet

variable {s : SwapSet} {n : Fin writtenCount} {data : Bytes}

/-- The payloads of a set are those of its entries, each with the number of its entry. -/
theorem mem_payloads : (n, data) ∈ s.payloads ↔ s.get? n.val = some data := by
  simp [payloads]

/-- No payload is empty, because an empty entry counts as none. So an access that writes a payload
is never refused for its length. -/
theorem ne_nil_of_mem_payloads (h : (n, data) ∈ s.payloads) : data ≠ [] := by
  rw [mem_payloads] at h
  unfold get? at h
  split at h
  · split at h
    · cases h
    · next hne =>
      cases h
      rintro rfl
      exact hne rfl
  · cases h

/-- The payloads stand by descending entry. So those of neighbours are written from the last to the
first. -/
theorem pairwise_payloads (s : SwapSet) : s.payloads.Pairwise fun p q => q.1 < p.1 := by
  unfold payloads
  rw [List.pairwise_filterMap, List.pairwise_reverse]
  refine (List.pairwise_lt_finRange writtenCount).imp ?_
  intro i j hij p hp q hq
  simp only [Option.map_eq_some_iff] at hp hq
  obtain ⟨_, -, rfl⟩ := hp
  obtain ⟨_, -, rfl⟩ := hq
  exact hij

/-- A set is accepted exactly if its bank is an active one, its last entry is unused, and none of
its payloads is too long for the compander. -/
theorem check_eq_ok {c : Compander} {b : Bank} : s.check c b = .ok () ↔
    isActiveBank c b = true ∧ s.get? (size - 1) = none ∧
      ∀ p ∈ s.payloads, p.2.length ≤ c.maxSwapBytes := by
  unfold check
  cases hactive : isActiveBank c b with
  | false => simp [throw, throwThe, MonadExceptOf.throw, bind, Except.bind]
  | true =>
    cases hlast : s.get? (size - 1) with
    | some d => simp [throw, throwThe, MonadExceptOf.throw, bind, Except.bind]
    | none =>
      simp only [Bool.not_true, Bool.false_eq_true, if_false, Option.isSome_none, true_and]
      show List.forM _ _ = _ ↔ _
      rw [forM_eq_ok]
      refine forall₂_congr fun p _ => ?_
      by_cases hlong : p.2.length > c.maxSwapBytes
      · simp [hlong, throw, throwThe, MonadExceptOf.throw]
      · simp [hlong, pure, Except.pure, Nat.not_lt.1 hlong]

/-- What is accepted as a whole is accepted one by one, in both passes. No write of a batch fails
for its own check. -/
theorem checkAccess_of_check {c : Compander} {b : Bank} (h : s.check c b = .ok ())
    {p : Fin writtenCount × Bytes} (hp : p ∈ s.payloads) :
    Table.checkAccess b p.2.machineLength = .ok () ∧
      Table.checkAccess c.holdingBank p.2.machineLength = .ok () := by
  obtain ⟨hactive, -, hlengths⟩ := check_eq_ok.1 h
  have hne : p.2 ≠ [] := ne_nil_of_mem_payloads hp
  have hlength := hlengths p hp
  have hend := Compander.active_end_le hactive
  have hstop := c.holding_end
  rw [Table.checkAccess_machineLength, Table.checkAccess_machineLength]
  refine ⟨⟨hne, ?_⟩, hne, ?_⟩
  · omega
  · omega

end SwapSet

end Predistortion
