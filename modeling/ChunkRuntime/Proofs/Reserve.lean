import Mathlib
import ChunkRuntime.Proofs.Pages

/-! Reserving a region and checking its ranges, for every size and every range. Reserving
refuses a zero size, then rounds the size up to pages as `pageSize * ((size + pageSize - 1) /
pageSize)`: the sum comes first, so the rounding faults exactly for the sizes that end less than
a page below the word's top, and otherwise gives the least multiple of the page not below the
size (`ceilMul_isLeast`). That many bytes are mapped where the system places them, or refused with
the system's error number (`reserve_eq`, `Reserves`).

Committing and decommitting check their range first: a range not of whole pages is refused as
unaligned, then a range whose end lies past the region as outside. The end is the exact sum of
offset and length, so a pair whose sum leaves the word is outside too, where a wrapped sum would
have passed (`checkRange_eq`). A range that passes is committed or decommitted as given: under
the system's memory laws exactly its own addresses change (`Ranges`). -/

namespace ChunkRuntime

/-! ### Rounding up to a multiple -/

/-- `k * ((n + k - 1) / k)` is the least multiple of `k` that is at least `n`. -/
theorem ceilMul_isLeast {k : Nat} (hk : 0 < k) (n : Nat) :
    IsLeast {m | k ∣ m ∧ n ≤ m} (k * ((n + k - 1) / k)) := by
  refine ⟨⟨Nat.dvd_mul_right k _, ?_⟩, ?_⟩
  · have hlt := Nat.lt_mul_div_succ (n + k - 1) hk
    rw [Nat.mul_add, Nat.mul_one] at hlt
    omega
  · rintro m ⟨⟨t, rfl⟩, hn⟩
    apply Nat.mul_le_mul_left
    -- the sum rounded down is below the next multiple after `k * t`
    have hsum : n + k - 1 < k * (t + 1) := by rw [Nat.mul_add, Nat.mul_one]; omega
    exact Nat.lt_succ_iff.1 ((Nat.div_lt_iff_lt_mul hk).2 (by rwa [Nat.mul_comm] at hsum))

namespace Region

/-! ### Reserving -/

/-- Reserving, by the order of its checks: a zero size is refused; the rounding to pages faults
when the size plus a page leaves the word; and otherwise the rounded size is mapped where the
system places it, or refused with the system's error number. -/
theorem reserve_eq (map : Nat → Except Nat Nat) (size : Nat) :
    reserve map size =
      if size = 0 then .error (.error (.outOfAddressSpace 0 0))
      else if size + pageSize < wordLimit then
        match map (pageSize * ((size + pageSize - 1) / pageSize)) with
        | .ok base => .ok ⟨base, pageSize * ((size + pageSize - 1) / pageSize)⟩
        | .error e => .error (.error (.outOfAddressSpace (pageSize * ((size + pageSize - 1) / pageSize)) e))
      else .error (.fault .addOverflow) := by
  unfold reserve
  rw [Pool.roundUp_eq (by decide)]
  by_cases h0 : size = 0
  · simp [h0, throw, throwThe, MonadExceptOf.throw, bind, Except.bind]
  · by_cases hw : size + pageSize < wordLimit
    · cases hmap : map (pageSize * ((size + pageSize - 1) / pageSize)) <;>
        simp [h0, hw, hmap, Halt.ofFault, throw, throwThe, MonadExceptOf.throw, bind, Except.bind, pure,
          Except.pure]
    · simp [h0, hw, Halt.ofFault, bind, Except.bind]

/-- The size plus a page stays in the word exactly when the size ends more than a page below
the word's top. -/
theorem add_page_lt_iff (size : Nat) : size + pageSize < wordLimit ↔ size < wordLimit - pageSize := by
  have hW : wordLimit = 18446744073709551616 := rfl
  simp only [hW, pageSize]
  omega

/-- How reserving `size` bytes with the system's mapping `map` can end: refused with size and
error number zero exactly for a zero size; faulting, on the sum the rounding computes, exactly
for a size that ends less than a page below the word's top; and otherwise with the least
multiple of the page not below `size`, mapped where the system places it and refused with that
size and the system's error number when the system refuses it. -/
structure Reserves (map : Nat → Except Nat Nat) (size : Nat) (res : Except Halt Region) : Prop where
  zero : res = .error (.error (.outOfAddressSpace 0 0)) ↔ size = 0
  fault : ∀ f, res = .error (.fault f) ↔ wordLimit - pageSize ≤ size ∧ f = .addOverflow
  rounds : 0 < size → size < wordLimit - pageSize → ∃ rs, IsLeast {m | pageSize ∣ m ∧ size ≤ m} rs ∧
    (∀ base, res = .ok ⟨base, rs⟩ ↔ map rs = .ok base) ∧
    (∀ e, res = .error (.error (.outOfAddressSpace rs e)) ↔ map rs = .error e)

/-- The least multiple of the page not below a non-zero size is not zero. -/
theorem ceilMul_pos {size : Nat} (h0 : 0 < size) : 0 < pageSize * ((size + pageSize - 1) / pageSize) :=
  Nat.lt_of_lt_of_le h0 ((ceilMul_isLeast (by decide) size).1.2)

theorem reserves (map : Nat → Except Nat Nat) (size : Nat) : Reserves map size (reserve map size) := by
  rw [reserve_eq]
  by_cases h0 : size = 0
  · subst h0
    refine ⟨by simp, fun f => by simp [show wordLimit - pageSize ≠ 0 by decide], fun h => absurd h (Nat.lt_irrefl 0)⟩
  · have hpos := ceilMul_pos (Nat.pos_of_ne_zero h0)
    by_cases hw : size + pageSize < wordLimit
    · have hw' := (add_page_lt_iff size).1 hw
      rw [if_neg h0, if_pos hw]
      refine ⟨?_, fun f => ?_, fun _ _ => ⟨_, ceilMul_isLeast (by decide) size, fun base => ?_, fun e => ?_⟩⟩
      · cases map (pageSize * ((size + pageSize - 1) / pageSize)) <;> simp [h0, hpos.ne']
      · cases map (pageSize * ((size + pageSize - 1) / pageSize)) <;> simp [Nat.not_le.2 hw']
      · cases map (pageSize * ((size + pageSize - 1) / pageSize)) <;> simp
      · cases map (pageSize * ((size + pageSize - 1) / pageSize)) <;> simp
    · have hw' : wordLimit - pageSize ≤ size := Nat.not_lt.1 (mt (add_page_lt_iff size).2 hw)
      refine ⟨by simp [h0, hw], fun f => by simp [hw', hw, h0, eq_comm], fun _ h => absurd h (by omega)⟩

/-- A reserved region lies where the system mapped it, and is a word long. -/
theorem reserve_ok {map : Nat → Except Nat Nat} {size : Nat} {r : Region} (h : reserve map size = .ok r) :
    map r.size = .ok r.base ∧ r.size < wordLimit := by
  rw [reserve_eq] at h
  split_ifs at h with h0 hw
  -- the rounded size is below the sum the rounding computes, which is within the word
  have hle : pageSize * ((size + pageSize - 1) / pageSize) < wordLimit := by
    have := Nat.mul_div_le (size + pageSize - 1) pageSize
    omega
  cases hmap : map (pageSize * ((size + pageSize - 1) / pageSize)) with
  | error e => simp [hmap] at h
  | ok base =>
    simp only [hmap, Except.ok.injEq] at h
    subst h
    exact ⟨hmap, hle⟩

/-! ### Checking a range -/

/-- The range check, by the order of its tests, on a region within the word: a range not of
whole pages is unaligned; then one whose end, summed without wrapping, lies past the region is
outside; any other passes. -/
theorem checkRange_eq {r : Region} (hr : r.size < wordLimit) (offset len : Nat) :
    r.checkRange offset len =
      if ¬ (pageSize ∣ offset ∧ pageSize ∣ len) then .error (.unaligned offset len)
      else if r.size < offset + len then .error (.outsideRegion offset len r.size)
      else .ok () := by
  unfold checkRange
  by_cases ha : pageSize ∣ offset ∧ pageSize ∣ len
  · have hmod : ¬ (offset % pageSize ≠ 0 ∨ len % pageSize ≠ 0) := by
      simp [Nat.mod_eq_zero_of_dvd ha.1, Nat.mod_eq_zero_of_dvd ha.2]
    rw [if_neg hmod, if_neg (not_not.2 ha)]
    by_cases hout : r.size < offset + len
    · rw [if_neg (by omega), if_pos hout]
    · rw [if_pos (by omega), if_neg hout]
  · have hmod : offset % pageSize ≠ 0 ∨ len % pageSize ≠ 0 := by
      rw [Nat.dvd_iff_mod_eq_zero, Nat.dvd_iff_mod_eq_zero] at ha
      omega
    rw [if_pos hmod, if_pos ha]

/-- A call that checks the range `offset`, `len` on region `r` first and then acts: refused as
unaligned exactly when the range is not of whole pages, as outside exactly when it is but ends
past the region, and otherwise acting, with `acts` holding of what it leaves. -/
structure Checked {μ : Type} (r : Region) (offset len : Nat) (acts : μ → Prop) (res : Except Fault μ) :
    Prop where
  unaligned : res = .error (.unaligned offset len) ↔ ¬ (pageSize ∣ offset ∧ pageSize ∣ len)
  outside : res = .error (.outsideRegion offset len r.size) ↔
    (pageSize ∣ offset ∧ pageSize ∣ len) ∧ r.size < offset + len
  passes : (∃ m, res = .ok m) ↔ (pageSize ∣ offset ∧ pageSize ∣ len) ∧ offset + len ≤ r.size
  acts : ∀ m, res = .ok m → acts m

/-- A call made after the range check is checked as the range is, and does on a range of whole
pages what it does. -/
theorem checked_bind {μ : Type} {r : Region} (hr : r.size < wordLimit) (offset len : Nat) {acts : μ → Prop}
    {m : μ} (hm : pageSize ∣ offset → pageSize ∣ len → acts m) :
    Checked r offset len acts (r.checkRange offset len >>= fun _ => .ok m) := by
  rw [checkRange_eq hr]
  by_cases ha : pageSize ∣ offset ∧ pageSize ∣ len
  · by_cases hout : r.size < offset + len
    · refine ⟨?_, ?_, ?_, ?_⟩ <;> simp [ha, hout, bind, Except.bind]
    · refine ⟨?_, ?_, ?_, ?_⟩ <;> simp [ha, hout, bind, Except.bind, hm ha.1 ha.2]
      omega
  · refine ⟨?_, ?_, ?_, ?_⟩ <;> simp [ha, bind, Except.bind]

variable {μ : Type} (mem : MemoryOps μ) (o : Observed μ)

/-- What committing and decommitting do on a region, for every range and every memory: each is
checked as the range is, and under the memory laws a commit opens exactly the range's addresses
and keeps every byte, and a decommit closes them and zeroes them and touches no other. -/
def Ranges (r : Region) : Prop :=
  ∀ offset len m,
    Checked r offset len (fun m' => mem.Lawful o → ∀ x,
        o.access m' x = (if r.base + offset ≤ x ∧ x < r.base + offset + len then true else o.access m x) ∧
        o.byte m' x = o.byte m x)
      (r.commitIn mem offset len m) ∧
    Checked r offset len (fun m' => mem.Lawful o → ∀ x,
        o.access m' x = (if r.base + offset ≤ x ∧ x < r.base + offset + len then false else o.access m x) ∧
        o.byte m' x = (if r.base + offset ≤ x ∧ x < r.base + offset + len then 0 else o.byte m x))
      (r.decommitIn mem offset len m)

/-- A region of whole pages at a page-aligned address within the word has its ranges checked
and acted on as `Ranges` says. -/
theorem ranges {r : Region} (hb : pageSize ∣ r.base) (hr : r.size < wordLimit) : Ranges mem o r := by
  intro offset len m
  -- a range that passes the check is of whole pages, so its pages are its own addresses
  have hmeets : ∀ x, pageSize ∣ offset → pageSize ∣ len →
      (pageMeets (r.base + offset) len x = true ↔ r.base + offset ≤ x ∧ x < r.base + offset + len) :=
    fun x ho hl => pageMeets_iff (Nat.dvd_add hb ho) hl x
  constructor
  · rw [show r.commitIn mem offset len m = (r.checkRange offset len >>= fun _ =>
      .ok (mem.protect m (r.base + offset) len true)) from rfl]
    refine checked_bind hr offset len fun ho hl hlaw x => ?_
    rw [hlaw.access_protect, hlaw.byte_protect]
    simp [hmeets x ho hl]
  · rw [show r.decommitIn mem offset len m = (r.checkRange offset len >>= fun _ =>
      .ok (mem.protect (mem.discard m (r.base + offset) len) (r.base + offset) len false)) from rfl]
    refine checked_bind hr offset len fun ho hl hlaw x => ?_
    rw [hlaw.access_protect, hlaw.byte_protect, hlaw.access_discard, hlaw.byte_discard]
    simp [hmeets x ho hl]

/-- For every size and every system that maps on page boundaries, reserving ends as `Reserves`
says; every region it gives has its ranges checked and acted on as `Ranges` says, under any
memory; and the faults read as the messages the checks spell. -/
theorem reserve_rounds_and_checks_ranges (map : Nat → Except Nat Nat) (size : Nat)
    (hmap : ∀ n b, map n = .ok b → pageSize ∣ b) :
    Reserves map size (reserve map size) ∧ (∀ r, reserve map size = .ok r → Ranges mem o r) ∧
      Fault.addOverflow.message = "attempt to add with overflow" ∧
      (∀ offset len, (Fault.unaligned offset len).message = s!"range {offset}+{len} is not page aligned") ∧
      ∀ offset len size,
        (Fault.outsideRegion offset len size).message = s!"range {offset}+{len} is outside a region of {size} bytes" := by
  refine ⟨reserves map size, fun r hr => ?_, rfl, fun _ _ => rfl, fun _ _ _ => rfl⟩
  obtain ⟨hbase, hsize⟩ := reserve_ok hr
  exact ranges mem o (hmap _ _ hbase) hsize

/-- The machine maps regions on a page boundary. -/
theorem machineMap_page_dvd : ∀ n b, machineMap n = .ok b → pageSize ∣ b := by
  intro n b h
  unfold machineMap at h
  split at h
  · cases h
  · cases h
    decide

/-- A page asked for of the machine, over memory a page at a time. -/
theorem reserve_one_byte_checks_ranges :
    (∀ n b, machineMap n = .ok b → pageSize ∣ b) ∧
      (Reserves machineMap 1 (reserve machineMap 1) ∧
        (∀ r, reserve machineMap 1 = .ok r → Ranges Pages.ops Pages.observed r) ∧
        Fault.addOverflow.message = "attempt to add with overflow" ∧
        (∀ offset len, (Fault.unaligned offset len).message = s!"range {offset}+{len} is not page aligned") ∧
        ∀ offset len size,
          (Fault.outsideRegion offset len size).message = s!"range {offset}+{len} is outside a region of {size} bytes") :=
  ⟨machineMap_page_dvd,
    reserve_rounds_and_checks_ranges Pages.ops Pages.observed machineMap 1 machineMap_page_dvd⟩

end Region

end ChunkRuntime
