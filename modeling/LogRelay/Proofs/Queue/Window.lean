import LogRelay.Queue
import Mathlib.Data.Nat.ModEq

/-!
# The window of waiting elements

The elements that wait stand in the slots from the read index up to the write index; the slots behind
them are spare and still hold what was last put there. Both are read as lists, and every step of a push
or a pop is an equation between these lists, wherever the indices stand and also when they wrap.
-/

namespace LogRelay.Queue

variable {α : Type} {capacity : Nat}

/-- The elements in the slots of consecutive indices. -/
def window (queue : Queue α capacity) (start : UInt64) (count : Nat) : List α :=
  (List.range count).map fun offset => queue.peek (start + UInt64.ofNat offset)

/-- Number of elements waiting, as a natural number. -/
def count (queue : Queue α capacity) : Nat := queue.length.toNat

/-- The elements waiting, oldest first. -/
def waiting (queue : Queue α capacity) : List α := queue.window queue.readIndex queue.count

/-- What the free slots still hold, in the order in which they will be filled. -/
def spare (queue : Queue α capacity) : List α :=
  queue.window queue.writeIndex (capacity - queue.count)

/-- The waiting elements fit into the slots; a push in progress has a free slot and a pop in progress has
an element. -/
structure Sound (queue : Queue α capacity) : Prop where
  /-- No more elements wait than there are slots. -/
  count_le : queue.count ≤ capacity
  /-- A push in progress has a slot of its own. -/
  count_lt : queue.pushing = true → queue.count < capacity
  /-- A pop in progress has an element. -/
  count_pos : queue.popping = true → 0 < queue.count

/-! ## Slots -/

theorem IsCapacity.lt_word {capacity : Nat} (hcapacity : IsCapacity capacity) :
    capacity < 2 ^ 64 := by
  rw [← hcapacity.1]
  exact Nat.pow_lt_pow_right (by decide) hcapacity.2

theorem slotOf_add_val (queue : Queue α capacity) (index : UInt64) (offset : Nat) :
    (queue.slotOf (index + UInt64.ofNat offset)).val = (index.toNat + offset) % capacity := by
  have hdvd := queue.isCapacity.dvd
  simp only [slotOf, UInt64.toNat_add, UInt64.toNat_ofNat']
  rw [Nat.mod_mod_of_dvd _ hdvd, Nat.add_mod, Nat.mod_mod_of_dvd _ hdvd, ← Nat.add_mod]

theorem slotOf_add_ne (queue : Queue α capacity) (index : UInt64) {near far : Nat}
    (horder : near < far) (hturn : far - near < capacity) :
    queue.slotOf (index + UInt64.ofNat near) ≠ queue.slotOf (index + UInt64.ofNat far) := by
  intro hsame
  have hvalues := congrArg Fin.val hsame
  rw [slotOf_add_val, slotOf_add_val] at hvalues
  have hdvd : capacity ∣ (index.toNat + far) - (index.toNat + near) :=
    (Nat.modEq_iff_dvd' (by omega)).1 hvalues
  have hle := Nat.le_of_dvd (by omega) hdvd
  omega

theorem peek_add_capacity (queue : Queue α capacity) (index : UInt64) :
    queue.peek (index + UInt64.ofNat capacity) = queue.peek index := by
  have hslot : queue.slotOf (index + UInt64.ofNat capacity) = queue.slotOf index := by
    apply Fin.ext
    rw [slotOf_add_val, Nat.add_mod_right]
    rfl
  rw [peek, peek, hslot]

theorem peek_eq_getElem (queue : Queue α capacity) (index : UInt64) :
    queue.peek index = queue.slots[(queue.slotOf index).val] := rfl

@[simp]
theorem peek_store_self (queue : Queue α capacity) (index : UInt64) (element : α) :
    (queue.store index element).peek index = element := by
  rw [peek_eq_getElem]
  exact Vector.getElem_set_self _

theorem peek_store_of_ne (queue : Queue α capacity) {index other : UInt64} (element : α)
    (hslots : queue.slotOf index ≠ queue.slotOf other) :
    (queue.store index element).peek other = queue.peek other := by
  have hvalues : (queue.slotOf index).val ≠ (queue.slotOf other).val := fun hsame =>
    hslots (Fin.ext hsame)
  rw [peek_eq_getElem, peek_eq_getElem]
  exact Vector.getElem_set_ne (queue.slotOf index).isLt _ hvalues

/-! ## Runs of slots -/

@[simp]
theorem window_zero (queue : Queue α capacity) (start : UInt64) : queue.window start 0 = [] := rfl

@[simp]
theorem length_window (queue : Queue α capacity) (start : UInt64) (count : Nat) :
    (queue.window start count).length = count := by
  simp [window]

theorem window_succ (queue : Queue α capacity) (start : UInt64) (count : Nat) :
    queue.window start (count + 1) = queue.peek start :: queue.window (start + 1) count := by
  rw [window, List.range_succ_eq_map, List.map_cons, List.map_map]
  have hstart : start + UInt64.ofNat 0 = start := by simp
  rw [hstart, window]
  congr 1
  apply List.map_congr_left
  intro offset _
  simp only [Function.comp, Nat.succ_eq_add_one, UInt64.ofNat_add]
  rw [UInt64.add_comm (UInt64.ofNat offset), ← UInt64.add_assoc]
  rfl

theorem window_concat (queue : Queue α capacity) (start : UInt64) (count : Nat) :
    queue.window start (count + 1) =
      queue.window start count ++ [queue.peek (start + UInt64.ofNat count)] := by
  simp [window, List.range_succ]

theorem window_store (queue : Queue α capacity) {index start : UInt64} {count : Nat} (element : α)
    (hapart : ∀ offset < count,
      queue.slotOf index ≠ queue.slotOf (start + UInt64.ofNat offset)) :
    (queue.store index element).window start count = queue.window start count := by
  apply List.map_congr_left
  intro offset hoffset
  exact queue.peek_store_of_ne element (hapart offset (List.mem_range.1 hoffset))

/-! ## The lists and the indices -/

@[simp]
theorem length_waiting (queue : Queue α capacity) : queue.waiting.length = queue.count :=
  length_window _ _ _

@[simp]
theorem length_spare (queue : Queue α capacity) : queue.spare.length = capacity - queue.count :=
  length_window _ _ _

theorem readIndex_add_count (queue : Queue α capacity) :
    queue.readIndex + UInt64.ofNat queue.count = queue.writeIndex := by
  simp only [count, length, UInt64.ofNat_toNat]
  rw [UInt64.add_comm, UInt64.sub_add_cancel]

theorem writeIndex_add (queue : Queue α capacity) (offset : Nat) :
    queue.writeIndex + UInt64.ofNat offset =
      queue.readIndex + UInt64.ofNat (queue.count + offset) := by
  rw [UInt64.ofNat_add, ← UInt64.add_assoc, readIndex_add_count]

theorem readIndex_eq_writeIndex_iff (queue : Queue α capacity) :
    queue.readIndex = queue.writeIndex ↔ queue.count = 0 := by
  constructor
  · intro hsame
    simp [count, length, hsame]
  · intro hempty
    rw [← readIndex_add_count, hempty]
    simp

theorem isFull_iff (queue : Queue α capacity) : queue.isFull = true ↔ capacity ≤ queue.count := by
  simp [isFull, count]

theorem isEmpty_iff (queue : Queue α capacity) : queue.isEmpty = true ↔ queue.count = 0 := by
  simp [isEmpty, count, ← UInt64.toNat_inj]

theorem waiting_eq_nil {queue : Queue α capacity} (hcount : queue.count = 0) : queue.waiting = [] := by
  rw [waiting, hcount, window_zero]

theorem waiting_eq_cons (queue : Queue α capacity) (hcount : 0 < queue.count) :
    queue.waiting =
      queue.peek queue.readIndex :: queue.window (queue.readIndex + 1) (queue.count - 1) := by
  rw [waiting, ← window_succ, Nat.sub_add_cancel hcount]

theorem spare_eq_cons (queue : Queue α capacity) (hcount : queue.count < capacity) :
    queue.spare = queue.peek queue.writeIndex ::
      queue.window (queue.writeIndex + 1) (capacity - queue.count - 1) := by
  rw [spare, ← window_succ, Nat.sub_add_cancel (by omega)]

/-! ## Filling a slot -/

@[simp]
theorem count_store (queue : Queue α capacity) (index : UInt64) (element : α) :
    (queue.store index element).count = queue.count := rfl

theorem waiting_store (queue : Queue α capacity) (element : α) (hcount : queue.count < capacity) :
    (queue.store queue.writeIndex element).waiting = queue.waiting := by
  apply window_store
  intro offset hoffset
  have hbefore : offset < queue.count := hoffset
  rw [← readIndex_add_count]
  exact (queue.slotOf_add_ne _ hbefore (by omega)).symm

theorem spare_store (queue : Queue α capacity) (element : α) (hcount : queue.count < capacity) :
    (queue.store queue.writeIndex element).spare = element :: queue.spare.tail := by
  rw [spare_eq_cons _ hcount, spare_eq_cons _ (by rwa [count_store])]
  simp only [List.tail_cons, count_store]
  congr 1
  · exact queue.peek_store_self _ _
  · apply window_store
    intro offset hoffset
    have hapart := @slotOf_add_ne _ _ queue queue.writeIndex 0 (1 + offset) (by omega) (by omega)
    rw [UInt64.ofNat_add, ← UInt64.add_assoc] at hapart
    simpa [store] using hapart

/-! ## Ending a push -/

theorem count_publish (queue : Queue α capacity) (hcount : queue.count < capacity) :
    (queue.publish queue.writeIndex).count = queue.count + 1 := by
  have hword := IsCapacity.lt_word queue.isCapacity
  have hnext : (queue.publish queue.writeIndex).length = queue.length + 1 := by
    simp only [length, publish]
    grind
  have hone : (1 : UInt64).toNat = 1 := rfl
  simp only [count] at hcount ⊢
  rw [hnext, UInt64.toNat_add, hone, Nat.mod_eq_of_lt (by omega)]

theorem waiting_publish (queue : Queue α capacity) (hcount : queue.count < capacity) :
    (queue.publish queue.writeIndex).waiting =
      queue.waiting ++ [queue.peek queue.writeIndex] := by
  rw [waiting, count_publish _ hcount, ← readIndex_add_count, waiting]
  exact window_concat _ _ _

theorem spare_publish (queue : Queue α capacity) (hcount : queue.count < capacity) :
    (queue.publish queue.writeIndex).spare = queue.spare.tail := by
  rw [spare_eq_cons _ hcount, spare, count_publish _ hcount, List.tail_cons, Nat.sub_add_eq]
  rfl

/-! ## Ending a pop -/

theorem count_release (queue : Queue α capacity) (hcount : 0 < queue.count) :
    (queue.release queue.readIndex).count = queue.count - 1 := by
  have hnext : (queue.release queue.readIndex).length = queue.length - 1 := by
    simp only [length, release]
    grind
  have hone : (1 : UInt64).toNat = 1 := rfl
  simp only [count] at hcount ⊢
  rw [hnext, UInt64.toNat_sub_of_le _ _ (UInt64.le_iff_toNat_le.2 (hone ▸ hcount)), hone]

theorem waiting_release (queue : Queue α capacity) (hcount : 0 < queue.count) :
    (queue.release queue.readIndex).waiting = queue.waiting.tail := by
  rw [waiting_eq_cons _ hcount, waiting, count_release _ hcount, List.tail_cons]
  rfl

theorem spare_release (queue : Queue α capacity) (hsound : queue.Sound) (hcount : 0 < queue.count) :
    (queue.release queue.readIndex).spare = queue.spare ++ [queue.peek queue.readIndex] := by
  have hle := hsound.count_le
  have hroom : capacity - (queue.count - 1) = capacity - queue.count + 1 := by omega
  have hturn : queue.writeIndex + UInt64.ofNat (capacity - queue.count) =
      queue.readIndex + UInt64.ofNat capacity := by
    rw [writeIndex_add, Nat.add_sub_cancel' hle]
  rw [spare, count_release _ hcount, hroom, spare, ← peek_add_capacity, ← hturn]
  exact window_concat _ _ _

end LogRelay.Queue
