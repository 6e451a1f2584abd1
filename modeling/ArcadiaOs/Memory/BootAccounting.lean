import ArcadiaOs.Memory.Accounting
import ArcadiaOs.Memory.BootMap
import Mathlib.Algebra.BigOperators.Group.Finset.Piecewise
import Mathlib.Algebra.Order.BigOperators.Group.Finset

/-!
The counter of reserved frames through `init_from_memmap`.  A usable entry clears the bits of the
frames it meets without counting them back, so the counter stays ahead of the bitmap by one for
each frame that a usable entry takes over from a reserved one.
-/

namespace ArcadiaOs.Memory

open Lib PhysicalFrameAllocator

/-- How often a usable entry meets the frame while it is reserved; `reserved` is the bit before the
entries. -/
def overridesFrom (frame : Nat) : Bool → List MemoryRegion → Nat
  | _, [] => 0
  | reserved, entry :: rest =>
      (if entry.isUsable && entry.meets frame && reserved then 1 else 0) +
        overridesFrom frame (if entry.meets frame then !entry.isUsable else reserved) rest

def overrides (entries : List MemoryRegion) (frame : Nat) : Nat := overridesFrom frame false entries

/-- A usable entry meets the frame, and the last entry before it that meets it reserves it. -/
def Overridden (entries : List MemoryRegion) (frame : Nat) : Prop :=
  ∃ earlier entry later reserved, entries = earlier ++ entry :: later ∧
    entry.isUsable ∧ entry.meets frame ∧
    lastMeeting earlier frame = some reserved ∧ ¬reserved.isUsable

def leftReserved (reserved : Bool) (entries : List MemoryRegion) (frame : Nat) : Bool :=
  match lastMeeting entries frame with
  | some entry => !entry.isUsable
  | none => reserved

theorem leftReserved_cons (reserved : Bool) (entry : MemoryRegion) (rest : List MemoryRegion)
    (frame : Nat) : leftReserved reserved (entry :: rest) frame =
      leftReserved (if entry.meets frame then !entry.isUsable else reserved) rest frame := by
  rw [leftReserved, leftReserved, lastMeeting_cons]
  cases lastMeeting rest frame with
  | some later => rfl
  | none => cases entry.meets frame <;> rfl

theorem overridesFrom_eq_zero (frame : Nat) (reserved : Bool) (entries : List MemoryRegion) :
    overridesFrom frame reserved entries = 0 ↔
      ∀ earlier entry later, entries = earlier ++ entry :: later →
        entry.isUsable → entry.meets frame → leftReserved reserved earlier frame = false := by
  induction entries generalizing reserved with
  | nil => simp [overridesFrom]
  | cons first rest ih =>
      rw [overridesFrom, Nat.add_eq_zero_iff, ih]
      constructor
      · rintro ⟨notHere, notLater⟩ earlier entry later split usable met
        cases earlier with
        | nil =>
            obtain ⟨rfl, _⟩ := List.cons.inj split
            rw [usable, met] at notHere
            simpa [leftReserved, lastMeeting] using notHere
        | cons head tail =>
            obtain ⟨rfl, restSplit⟩ := List.cons.inj split
            rw [leftReserved_cons]
            exact notLater tail entry later restSplit usable met
      · intro never
        constructor
        · rw [if_neg]
          intro here
          simp only [Bool.and_eq_true] at here
          have free := never [] first rest rfl here.1.1 here.1.2
          exact Bool.noConfusion (free.symm.trans here.2)
        · intro earlier entry later split usable met
          rw [← leftReserved_cons]
          exact never (first :: earlier) entry later (congrArg (first :: ·) split) usable met

theorem overrides_eq_zero (entries : List MemoryRegion) (frame : Nat) :
    overrides entries frame = 0 ↔ ¬Overridden entries frame := by
  rw [overrides, overridesFrom_eq_zero]
  constructor
  · rintro never ⟨earlier, entry, later, reserved, split, usable, met, last, kept⟩
    have free := never earlier entry later split usable met
    rw [leftReserved, last] at free
    exact kept (by simpa using free)
  · intro never earlier entry later split usable met
    rw [leftReserved]
    cases last : lastMeeting earlier frame with
    | none => rfl
    | some reserved =>
        by_contra kept
        exact never ⟨earlier, entry, later, reserved, split, usable, met, last, by simpa using kept⟩

theorem overridesFrom_le (frame : Nat) (reserved : Bool) (entries : List MemoryRegion) :
    overridesFrom frame reserved entries ≤ entries.length := by
  induction entries generalizing reserved with
  | nil => exact Nat.le_refl 0
  | cons entry rest ih =>
      have later := ih (if entry.meets frame then !entry.isUsable else reserved)
      rw [overridesFrom, List.length_cons]
      split <;> omega

/-- A list short enough for its overrides not to wrap the counter has none at all. -/
theorem overrides_dvd_iff (entries : List MemoryRegion) (total : Nat)
    (total_le : total ≤ maxTrackedFrames) (short : entries.length < 2 ^ 44) :
    2 ^ 64 ∣ ∑ frame ∈ Finset.range total, overrides entries frame ↔
      ∀ frame, frame < total → ¬Overridden entries frame := by
  have small : ∑ frame ∈ Finset.range total, overrides entries frame < 2 ^ 64 := by
    have each : ∑ frame ∈ Finset.range total, overrides entries frame ≤ total * entries.length := by
      have bound := Finset.sum_le_card_nsmul (Finset.range total) (overrides entries) entries.length
        fun frame _ => overridesFrom_le frame false entries
      rwa [Finset.card_range, Nat.nsmul_eq_mul] at bound
    have product : total * entries.length ≤ 2 ^ 20 * entries.length :=
      Nat.mul_le_mul_right _ (total_le.trans (by decide))
    omega
  have zero : 2 ^ 64 ∣ ∑ frame ∈ Finset.range total, overrides entries frame ↔
      ∑ frame ∈ Finset.range total, overrides entries frame = 0 := by omega
  rw [zero, Finset.sum_eq_zero_iff]
  constructor
  · intro none frame inside
    exact (overrides_eq_zero entries frame).mp (none frame (Finset.mem_range.mpr inside))
  · intro none frame member
    exact (overrides_eq_zero entries frame).mpr (none frame (Finset.mem_range.mp member))

namespace PhysicalFrameAllocator

theorem allocatedFrames_releaseFrame (pmm : PhysicalFrameAllocator) (frame : Nat) :
    (pmm.releaseFrame frame).allocatedFrames = pmm.allocatedFrames := by
  unfold releaseFrame
  split
  · exact allocatedFrames_markFrameFree pmm frame
  · rfl

theorem Padded.releaseFrame {pmm : PhysicalFrameAllocator} (padded : pmm.Padded) (frame : Nat) :
    (pmm.releaseFrame frame).Padded := by
  unfold PhysicalFrameAllocator.releaseFrame
  split
  · exact padded.markFrameFree frame
  · exact padded

theorem Accounts.uncounted {before after : PhysicalFrameAllocator} {excess : Nat}
    (frames : Finset Nat) (accounts : before.Accounts excess)
    (total : after.totalFrames = before.totalFrames)
    (marks : ∀ frame, before.isFrameReserved frame =
      (decide (frame ∈ frames) || after.isFrameReserved frame))
    (freed : ∀ frame ∈ frames, after.isFrameReserved frame = false)
    (counter : after.allocatedFrames = before.allocatedFrames) (padded : after.Padded) :
    after.Accounts (excess + frames.card) := by
  refine ⟨?_, padded⟩
  rw [counter, accounts.counted, reservedCount_gain frames total.symm marks freed, Nat.add_assoc,
    Nat.add_comm frames.card]

end PhysicalFrameAllocator

namespace PhysicalMemoryManager

/-- The excess of a usable entry is the number of its frames that were reserved. -/
theorem addEntry_accounts (manager : PhysicalMemoryManager) (entry : MemoryRegion) {excess : Nat}
    (bound : entry.base.asU64 + entry.size < 2 ^ 52)
    (accounts : manager.frameAllocator.Accounts excess) {next : PhysicalMemoryManager}
    (added : manager.addEntry entry = some next) :
    next.frameAllocator.Accounts (excess +
      ∑ frame ∈ Finset.range manager.frameAllocator.totalFrames,
        if entry.isUsable && entry.meets frame && manager.frameAllocator.isFrameReserved frame
        then 1 else 0) := by
  obtain ⟨same, added', total, bits⟩ := manager.addEntry_spec entry bound
  obtain rfl := Option.some.inj (added.symm.trans added')
  by_cases usable : entry.isUsable = true
  · rw [← Finset.card_filter]
    simp only [usable, Bool.true_and, Bool.and_eq_true]
    refine accounts.uncounted _ total ?_ ?_ ?_ ?_
    · intro frame
      by_cases inside : frame < manager.frameAllocator.totalFrames
      · rw [bits frame inside]
        cases met : entry.meets frame <;> simp [met, usable, inside]
      · have outside := Nat.le_of_not_lt inside
        rw [isFrameReserved_of_ge outside, isFrameReserved_of_ge (total.trans_le outside),
          Bool.or_true]
    · intro frame member
      obtain ⟨inside, met, _⟩ := Finset.mem_filter.mp member
      rw [bits frame (Finset.mem_range.mp inside), if_pos met, usable]
      rfl
    · simp only [addEntry, usable, if_true, releaseRegion, entry.end?_eq bound, Option.map_some,
        Option.some.injEq] at added
      rw [← added]
      exact foldl_field allocatedFrames releaseFrame allocatedFrames_releaseFrame _ _
    · simp only [addEntry, usable, if_true, releaseRegion, entry.end?_eq bound, Option.map_some,
        Option.some.injEq] at added
      rw [← added]
      exact List.foldlRecOn (List.range' _ _) releaseFrame (motive := Padded)
        accounts.padded fun _ padded frame _ => padded.releaseFrame frame
  · simp only [addEntry, usable, reserveRegion, entry.end?_eq bound, Option.map_some,
      Option.some.injEq, Bool.false_eq_true, if_false] at added
    rw [← added]
    simpa [usable] using reserveRange_accounts accounts entry.base _

theorem addEntries_accounts (entries : List MemoryRegion)
    (bounded : ∀ entry ∈ entries, entry.base.asU64 + entry.size < 2 ^ 52)
    (manager next : PhysicalMemoryManager) {excess : Nat}
    (accounts : manager.frameAllocator.Accounts excess)
    (loaded : entries.foldlM addEntry manager = some next) :
    next.frameAllocator.Accounts (excess +
      ∑ frame ∈ Finset.range manager.frameAllocator.totalFrames,
        overridesFrom frame (manager.frameAllocator.isFrameReserved frame) entries) := by
  induction entries generalizing manager excess with
  | nil =>
      obtain rfl := Option.some.inj loaded
      simpa [overridesFrom] using accounts
  | cons entry rest ih =>
      have bound := bounded entry (by simp)
      obtain ⟨middle, added, total, bits⟩ := manager.addEntry_spec entry bound
      rw [List.foldlM_cons, added] at loaded
      have counted := ih (fun other member => bounded other (by simp [member])) middle
        (manager.addEntry_accounts entry bound accounts added) loaded
      have later : ∑ frame ∈ Finset.range middle.frameAllocator.totalFrames,
            overridesFrom frame (middle.frameAllocator.isFrameReserved frame) rest =
          ∑ frame ∈ Finset.range manager.frameAllocator.totalFrames,
            overridesFrom frame (if entry.meets frame then !entry.isUsable
              else manager.frameAllocator.isFrameReserved frame) rest := by
        rw [total]
        apply Finset.sum_congr rfl
        intro frame member
        rw [bits frame (Finset.mem_range.mp member)]
      rw [later, Nat.add_assoc, ← Finset.sum_add_distrib] at counted
      exact counted

/-- The accounts of the allocator after the boot map: the counter and the check agree with the
bitmap, and `next_free` is the lowest free frame. -/
structure Booted (manager : PhysicalMemoryManager) : Prop where
  counted : manager.frameAllocator.allocatedFrames = manager.frameAllocator.reservedCount
  valid : manager.validate = true
  nextFree : manager.frameAllocator.NextFreeSound
  lowest : manager.frameAllocator.NextFreeLowest

theorem computeStatistics_same (manager : PhysicalMemoryManager) :
    SameFrames manager.computeStatistics.frameAllocator manager.frameAllocator ∧
      manager.computeStatistics.frameAllocator.allocatedFrames =
        manager.frameAllocator.allocatedFrames :=
  ⟨⟨rfl, rfl, rfl⟩, rfl⟩

theorem finishMemmap_accounts {manager : PhysicalMemoryManager} {excess : Nat}
    (accounts : manager.frameAllocator.Accounts excess) :
    manager.finishMemmap.frameAllocator.Accounts excess := by
  have reserved : manager.frameAllocator.initStandardReservations.Accounts excess :=
    List.foldlRecOn standardReservations _
      (motive := fun pmm : PhysicalFrameAllocator => pmm.Accounts excess) accounts fun _ kept range _ => reserveRange_accounts kept range.1 range.2
  obtain ⟨same, counter⟩ := computeStatistics_same { manager with
    frameAllocator := manager.frameAllocator.initStandardReservations.recalculateNextFree }
  exact reserved.recalculate.congr same.bitmap same.totalFrames counter

theorem initFromMemmap_accounts (bitmap : Bitmap 8) (totalMemoryBytes : Nat)
    (entries : List MemoryRegion)
    (bounded : ∀ entry ∈ entries, entry.base.asU64 + entry.size < 2 ^ 52) :
    ∃ manager, (new bitmap totalMemoryBytes).initFromMemmap entries = some manager ∧
      manager.frameAllocator.Accounts (∑ frame ∈ Finset.range
        (min (totalMemoryBytes / frameSize) maxTrackedFrames), overrides entries frame) ∧
      manager.frameAllocator.NextFreeSound ∧ manager.frameAllocator.NextFreeLowest := by
  obtain ⟨added, loaded, total, _⟩ := addEntries_spec entries bounded (new bitmap totalMemoryBytes)
  have accounts := finishMemmap_accounts (addEntries_accounts entries bounded _ added
    (new_accounts bitmap totalMemoryBytes) loaded)
  have clear : ∑ frame ∈ Finset.range (new bitmap totalMemoryBytes).frameAllocator.totalFrames,
        overridesFrom frame ((new bitmap totalMemoryBytes).frameAllocator.isFrameReserved frame)
          entries =
      ∑ frame ∈ Finset.range (min (totalMemoryBytes / frameSize) maxTrackedFrames),
        overrides entries frame := by
    apply Finset.sum_congr rfl
    intro frame member
    have free := new_free bitmap totalMemoryBytes frame (Finset.mem_range.mp member)
    exact congrArg (overridesFrom frame · entries) free
  rw [Nat.zero_add, clear] at accounts
  obtain ⟨same, _⟩ := computeStatistics_same { added with
    frameAllocator := added.frameAllocator.initStandardReservations.recalculateNextFree }
  exact ⟨added.finishMemmap, by rw [initFromMemmap, loaded, Option.map_some], accounts,
    (recalculateNextFree_sound _).congr same, (recalculateNextFree_lowest _).congr same⟩

/-- The accounting survives the boot map exactly when the overrides of all tracked frames add up to
a multiple of 2^64; for a list that fits in memory, exactly when there are none. -/
theorem initFromMemmap_booted (bitmap : Bitmap 8) (totalMemoryBytes : Nat)
    (entries : List MemoryRegion)
    (bounded : ∀ entry ∈ entries, entry.base.asU64 + entry.size < 2 ^ 52) :
    ∃ manager, (new bitmap totalMemoryBytes).initFromMemmap entries = some manager ∧
      (manager.Booted ↔ 2 ^ 64 ∣ ∑ frame ∈ Finset.range
        (min (totalMemoryBytes / frameSize) maxTrackedFrames), overrides entries frame) ∧
      (entries.length < 2 ^ 44 → (manager.Booted ↔
        ∀ frame, frame < min (totalMemoryBytes / frameSize) maxTrackedFrames →
          ¬Overridden entries frame)) := by
  obtain ⟨manager, loaded, accounts, sound, lowest⟩ :=
    initFromMemmap_accounts bitmap totalMemoryBytes entries bounded
  have booted : manager.Booted ↔ 2 ^ 64 ∣ ∑ frame ∈ Finset.range
      (min (totalMemoryBytes / frameSize) maxTrackedFrames), overrides entries frame := by
    rw [← accounts.exact_iff]
    constructor
    · exact Booted.counted
    · intro counted
      exact ⟨counted, (validateBitmap_iff accounts.padded).mpr counted, sound, lowest⟩
  refine ⟨manager, loaded, booted, fun short => ?_⟩
  exact booted.trans (overrides_dvd_iff entries _ (Nat.min_le_right _ _) short)

theorem initFromMemmap_booted_ram :
    ∃ manager, (new (fun _ => 0#8) 0x600000).initFromMemmap [ramRegion] = some manager ∧
      manager.Booted := by
  obtain ⟨manager, loaded, _, booted⟩ := initFromMemmap_booted (fun _ => 0#8) 0x600000 [ramRegion]
    (by simp [ramRegion])
  refine ⟨manager, loaded, (booted (by decide)).mpr fun frame _ overridden => ?_⟩
  obtain ⟨earlier, entry, later, reserved, split, _, _, last, kept⟩ := overridden
  cases earlier with
  | nil => simp [lastMeeting] at last
  | cons first rest => simp at split

/-- A firmware region that is listed before the RAM around it stays in the counter. -/
theorem initFromMemmap_miscounts_firmware :
    ¬∀ (bitmap : Bitmap 8) (totalMemoryBytes : Nat) (entries : List MemoryRegion),
      (∀ entry ∈ entries, entry.base.asU64 + entry.size < 2 ^ 52) →
        ∃ manager, (new bitmap totalMemoryBytes).initFromMemmap entries = some manager ∧
          manager.Booted := by
  intro claimed
  have bounded : ∀ entry ∈ [firmwareRegion, ramRegion],
      entry.base.asU64 + entry.size < 2 ^ 52 := by
    simp [firmwareRegion, ramRegion]
  obtain ⟨manager, loaded, booted⟩ := claimed (fun _ => 0#8) 0x600000 _ bounded
  obtain ⟨other, loadedAgain, accounts, _⟩ :=
    initFromMemmap_accounts (fun _ => 0#8) 0x600000 [firmwareRegion, ramRegion] bounded
  obtain rfl := Option.some.inj (loaded.symm.trans loadedAgain)
  have none := (overrides_dvd_iff [firmwareRegion, ramRegion] _ (Nat.min_le_right _ _)
    (by decide)).mp (accounts.exact_iff.mp booted.counted)
  refine none 0x500 (by decide) ⟨[firmwareRegion], ramRegion, [], firmwareRegion, ?_⟩
  exact ⟨rfl, rfl, rfl, rfl, by decide⟩

end PhysicalMemoryManager

end ArcadiaOs.Memory
