import ArcadiaOs.Memory.Physmem
import ArcadiaOs.Memory.PhysmemManagerCore

/-!
The bitmap that `init_from_memmap` leaves behind.  Outside the standard
reservations the last entry that meets a frame decides it, and a frame that no
entry meets stays free; this is compared with the frames that are RAM.
-/

namespace ArcadiaOs.Memory

open Lib PhysicalFrameAllocator

def MemoryRegion.Covers (region : MemoryRegion) (address : Nat) : Prop :=
  region.base.asU64 ≤ address ∧ address < region.base.asU64 + region.size

/-- The frame lies in the region rounded outward to whole frames. -/
def MemoryRegion.meets (region : MemoryRegion) (frame : Nat) : Bool :=
  decide (region.base.asU64 / frameSize ≤ frame ∧
    frame < (region.base.asU64 + region.size + frameSize - 1) / frameSize)

def lastMeeting (entries : List MemoryRegion) (frame : Nat) : Option MemoryRegion :=
  entries.reverse.find? fun entry => entry.meets frame

def InStandardReservation (frame : Nat) : Prop :=
  ∃ range ∈ standardReservations,
    range.1.asU64 / frameSize ≤ frame ∧ frame < (range.2.asU64 + frameSize - 1) / frameSize

def WhollyUsable (entries : List MemoryRegion) (frame : Nat) : Prop :=
  ∀ address, address / frameSize = frame → ∃ entry ∈ entries, entry.isUsable ∧ entry.Covers address

def MeetsNoReserved (entries : List MemoryRegion) (frame : Nat) : Prop :=
  ∀ entry ∈ entries, ¬entry.isUsable → ∀ address, address / frameSize = frame → ¬entry.Covers address

/-- A frame that may be handed out: RAM as the map describes it and not kept by the kernel. -/
def Allocatable (entries : List MemoryRegion) (frame : Nat) : Prop :=
  WhollyUsable entries frame ∧ MeetsNoReserved entries frame ∧ ¬InStandardReservation frame

/-- The last entry that meets a frame tells whether it is RAM: there is such an entry, and it is
usable exactly when the frame is wholly usable and free of reserved bytes. -/
def LastEntryDecides (entries : List MemoryRegion) (frame : Nat) : Prop :=
  ∃ entry, lastMeeting entries frame = some entry ∧
    (entry.isUsable ↔ WhollyUsable entries frame ∧ MeetsNoReserved entries frame)

theorem MemoryRegion.end?_eq (region : MemoryRegion)
    (bound : region.base.asU64 + region.size < 2 ^ 52) :
    region.end? = some ⟨region.base.asU64 + region.size, bound⟩ := by
  have wrapped : wrap64 (region.base.asU64 + region.size) = region.base.asU64 + region.size := by
    rw [wrap64_eq, Nat.mod_eq_of_lt (by omega)]
  simp only [MemoryRegion.end?, wrapped, PhysAddr.new?, bound, dite_true]

theorem lastMeeting_cons (entry : MemoryRegion) (rest : List MemoryRegion) (frame : Nat) :
    lastMeeting (entry :: rest) frame =
      (lastMeeting rest frame).or (if entry.meets frame then some entry else none) := by
  rw [lastMeeting, List.reverse_cons, List.find?_append]
  cases met : entry.meets frame <;> simp [met, lastMeeting]

theorem totalFrames_releaseFrame (pmm : PhysicalFrameAllocator) (frame : Nat) :
    (pmm.releaseFrame frame).totalFrames = pmm.totalFrames := by
  unfold releaseFrame
  split <;> simp

theorem isFrameReserved_releaseFrame (pmm : PhysicalFrameAllocator) (frame query : Nat) :
    (pmm.releaseFrame frame).isFrameReserved query =
      (pmm.isFrameReserved query && !decide (query = frame ∧ query < pmm.totalFrames)) := by
  unfold releaseFrame
  split
  · exact isFrameReserved_markFrameFree pmm frame query
  · rename_i free
    by_cases same : query = frame
    · simp [same, free]
    · simp [same]

namespace PhysicalMemoryManager

/-- One entry of the map overrides the frames it meets and leaves the others alone. -/
theorem addEntry_spec (manager : PhysicalMemoryManager) (entry : MemoryRegion)
    (bound : entry.base.asU64 + entry.size < 2 ^ 52) :
    ∃ next, manager.addEntry entry = some next ∧
      next.frameAllocator.totalFrames = manager.frameAllocator.totalFrames ∧
      ∀ frame, frame < manager.frameAllocator.totalFrames →
        next.frameAllocator.isFrameReserved frame =
          if entry.meets frame then !entry.isUsable
          else manager.frameAllocator.isFrameReserved frame := by
  by_cases usable : entry.isUsable = true
  · simp only [addEntry, usable, if_true, releaseRegion, entry.end?_eq bound, Option.map_some]
    obtain ⟨total, release⟩ := foldl_release releaseFrame totalFrames_releaseFrame
      isFrameReserved_releaseFrame (List.range' (entry.base.asU64 / frameSize)
        (min ((entry.base.asU64 + entry.size + frameSize - 1) / frameSize)
          manager.frameAllocator.totalFrames - entry.base.asU64 / frameSize))
      manager.frameAllocator
    refine ⟨_, rfl, total, fun frame inside => ?_⟩
    rw [release]
    simp only [List.mem_range'_1, MemoryRegion.meets, inside, and_true, decide_eq_true_eq]
    split
    · rename_i met
      have listed : entry.base.asU64 / frameSize ≤ frame ∧ frame < entry.base.asU64 / frameSize +
          (min ((entry.base.asU64 + entry.size + frameSize - 1) / frameSize)
            manager.frameAllocator.totalFrames - entry.base.asU64 / frameSize) := by omega
      simp [listed]
    · rename_i missed
      have unlisted : ¬(entry.base.asU64 / frameSize ≤ frame ∧ frame < entry.base.asU64 / frameSize +
          (min ((entry.base.asU64 + entry.size + frameSize - 1) / frameSize)
            manager.frameAllocator.totalFrames - entry.base.asU64 / frameSize)) := by omega
      simp [unlisted]
  · simp only [addEntry, usable, reserveRegion, entry.end?_eq bound, Option.map_some,
      Bool.false_eq_true, if_false]
    obtain ⟨total, reserve, _⟩ := manager.frameAllocator.reserveRange_spec entry.base
      ⟨entry.base.asU64 + entry.size, bound⟩
    refine ⟨_, rfl, total, fun frame inside => ?_⟩
    rw [reserve]
    simp only [MemoryRegion.meets, decide_eq_true_eq]
    split
    · rename_i met
      simp [met]
    · rename_i missed
      simp [missed]

theorem addEntries_spec (entries : List MemoryRegion)
    (bounded : ∀ entry ∈ entries, entry.base.asU64 + entry.size < 2 ^ 52)
    (manager : PhysicalMemoryManager) :
    ∃ next, entries.foldlM addEntry manager = some next ∧
      next.frameAllocator.totalFrames = manager.frameAllocator.totalFrames ∧
      ∀ frame, frame < manager.frameAllocator.totalFrames →
        next.frameAllocator.isFrameReserved frame =
          match lastMeeting entries frame with
          | some entry => !entry.isUsable
          | none => manager.frameAllocator.isFrameReserved frame := by
  induction entries generalizing manager with
  | nil => exact ⟨manager, rfl, rfl, fun _ _ => rfl⟩
  | cons entry rest ih =>
      obtain ⟨middle, added, middleTotal, middleBits⟩ :=
        manager.addEntry_spec entry (bounded entry (by simp))
      obtain ⟨next, addedRest, total, bits⟩ :=
        ih (fun other member => bounded other (by simp [member])) middle
      refine ⟨next, ?_, total.trans middleTotal, fun frame inside => ?_⟩
      · rw [List.foldlM_cons, added]
        exact addedRest
      · rw [bits frame (by omega), lastMeeting_cons, middleBits frame inside]
        cases lastMeeting rest frame with
        | some later => rfl
        | none => cases met : entry.meets frame <;> simp

theorem reserveRanges_spec (ranges : List (PhysAddr × PhysAddr)) (pmm : PhysicalFrameAllocator) :
    (ranges.foldl (fun pmm range => pmm.reserveRange range.1 range.2) pmm).totalFrames =
        pmm.totalFrames ∧
      ∀ frame, (ranges.foldl (fun pmm range => pmm.reserveRange range.1 range.2)
          pmm).isFrameReserved frame = true ↔
        (∃ range ∈ ranges, range.1.asU64 / frameSize ≤ frame ∧
          frame < (range.2.asU64 + frameSize - 1) / frameSize) ∨
        pmm.isFrameReserved frame = true := by
  induction ranges generalizing pmm with
  | nil => simp
  | cons range rest ih =>
      obtain ⟨total, bits⟩ := ih (pmm.reserveRange range.1 range.2)
      obtain ⟨firstTotal, firstBits, _⟩ := pmm.reserveRange_spec range.1 range.2
      refine ⟨total.trans firstTotal, fun frame => ?_⟩
      rw [List.foldl_cons, bits, firstBits]
      simp only [Bool.or_eq_true, decide_eq_true_eq, List.exists_mem_cons_iff]
      exact or_left_comm.trans or_assoc.symm

theorem initStandardReservations_spec (pmm : PhysicalFrameAllocator) :
    pmm.initStandardReservations.totalFrames = pmm.totalFrames ∧
      ∀ frame, pmm.initStandardReservations.isFrameReserved frame = true ↔
        InStandardReservation frame ∨ pmm.isFrameReserved frame = true :=
  reserveRanges_spec standardReservations pmm

theorem computeStatistics_spec (manager : PhysicalMemoryManager) (pmm : PhysicalFrameAllocator) :
    ({ manager with frameAllocator := pmm.recalculateNextFree } :
        PhysicalMemoryManager).computeStatistics.frameAllocator.totalFrames = pmm.totalFrames ∧
      ∀ frame, ({ manager with frameAllocator := pmm.recalculateNextFree } :
        PhysicalMemoryManager).computeStatistics.frameAllocator.isFrameReserved frame =
          pmm.isFrameReserved frame :=
  ⟨rfl, isFrameReserved_congr rfl rfl⟩

theorem initFromMemmap_spec (bitmap : Bitmap 8) (totalMemoryBytes : Nat)
    (entries : List MemoryRegion)
    (bounded : ∀ entry ∈ entries, entry.base.asU64 + entry.size < 2 ^ 52) :
    ∃ manager, (new bitmap totalMemoryBytes).initFromMemmap entries = some manager ∧
      manager.frameAllocator.totalFrames =
        (PhysicalFrameAllocator.new bitmap totalMemoryBytes).totalFrames ∧
      ∀ frame, frame < manager.frameAllocator.totalFrames →
        (manager.frameAllocator.isFrameReserved frame = false ↔
          ¬InStandardReservation frame ∧
            ∀ entry, lastMeeting entries frame = some entry → entry.isUsable) := by
  obtain ⟨added, loaded, total, bits⟩ := addEntries_spec entries bounded (new bitmap totalMemoryBytes)
  obtain ⟨standardTotal, standardBits⟩ := initStandardReservations_spec added.frameAllocator
  obtain ⟨finalTotal, finalBits⟩ :=
    computeStatistics_spec added added.frameAllocator.initStandardReservations
  have sameTotal := finalTotal.trans (standardTotal.trans total)
  refine ⟨added.finishMemmap, by rw [initFromMemmap, loaded, Option.map_some], sameTotal,
    fun frame inside => ?_⟩
  have tracked := Nat.lt_of_lt_of_eq inside sameTotal
  refine (Eq.congr_left (finalBits frame)).trans ?_
  rw [Bool.eq_false_iff, ne_eq, standardBits, not_or, bits frame tracked]
  refine and_congr_right fun _ => ?_
  cases lastMeeting entries frame with
  | some entry => simp
  | none =>
      have free := new_free bitmap totalMemoryBytes frame tracked
      refine iff_of_true (fun reserved => ?_) (fun entry absent => nomatch absent)
      exact Bool.noConfusion ((show _ = true from reserved).symm.trans free)

theorem meets_of_covers {entry : MemoryRegion} {address frame : Nat}
    (inFrame : address / frameSize = frame) (covered : entry.Covers address) :
    entry.meets frame = true := by
  obtain ⟨lower, upper⟩ := covered
  refine decide_eq_true ?_
  simp only [frameSize] at inFrame ⊢
  omega

theorem lastMeeting_isSome {entries : List MemoryRegion} {frame : Nat}
    (usable : WhollyUsable entries frame) : ∃ entry, lastMeeting entries frame = some entry := by
  have inFrame : frame * frameSize / frameSize = frame := Nat.mul_div_cancel frame (by decide)
  obtain ⟨entry, member, _, covered⟩ := usable (frame * frameSize) inFrame
  rw [← Option.isSome_iff_exists, lastMeeting, List.find?_isSome]
  exact ⟨entry, List.mem_reverse.mpr member, meets_of_covers inFrame covered⟩

/-- The boot map is sound exactly when, on every tracked frame outside the standard reservations,
the last entry that meets the frame exists and tells whether it is RAM. -/
theorem initFromMemmap_sound (bitmap : Bitmap 8) (totalMemoryBytes : Nat)
    (entries : List MemoryRegion)
    (bounded : ∀ entry ∈ entries, entry.base.asU64 + entry.size < 2 ^ 52) :
    ∃ manager, (new bitmap totalMemoryBytes).initFromMemmap entries = some manager ∧
      ((∀ frame, frame < manager.frameAllocator.totalFrames →
          (manager.frameAllocator.isFrameReserved frame = false ↔ Allocatable entries frame)) ↔
        ∀ frame, frame < min (totalMemoryBytes / frameSize) maxTrackedFrames →
          ¬InStandardReservation frame → LastEntryDecides entries frame) := by
  obtain ⟨manager, loaded, total, bits⟩ := initFromMemmap_spec bitmap totalMemoryBytes entries bounded
  refine ⟨manager, loaded, ?_⟩
  rw [show min (totalMemoryBytes / frameSize) maxTrackedFrames = manager.frameAllocator.totalFrames
    from total.symm]
  refine forall_congr' fun frame => forall_congr' fun inside => ?_
  rw [bits frame inside]
  constructor
  · intro sound outside
    have free : (∀ entry, lastMeeting entries frame = some entry → entry.isUsable) ↔
        WhollyUsable entries frame ∧ MeetsNoReserved entries frame := by
      constructor
      · intro decided
        obtain ⟨usable, noReserved, _⟩ := sound.mp ⟨outside, decided⟩
        exact ⟨usable, noReserved⟩
      · rintro ⟨usable, noReserved⟩
        exact (sound.mpr ⟨usable, noReserved, outside⟩).2
    cases last : lastMeeting entries frame with
    | none =>
        -- A hole: nothing meets the frame, and yet it would have to be RAM.
        have usable := (free.mp fun entry found => by rw [last] at found; nomatch found).1
        obtain ⟨entry, found⟩ := lastMeeting_isSome usable
        rw [last] at found
        nomatch found
    | some entry =>
        refine ⟨entry, last, ?_⟩
        rw [← free, last]
        constructor
        · intro usable other same
          obtain rfl := Option.some.inj same
          exact usable
        · exact fun decided => decided entry rfl
  · intro condition
    constructor
    · rintro ⟨outside, decided⟩
      obtain ⟨entry, found, usable⟩ := condition outside
      obtain ⟨ram, noReserved⟩ := usable.mp (decided entry found)
      exact ⟨ram, noReserved, outside⟩
    · rintro ⟨ram, noReserved, outside⟩
      obtain ⟨entry, found, usable⟩ := condition outside
      refine ⟨outside, fun other same => ?_⟩
      obtain rfl := Option.some.inj (found.symm.trans same)
      exact usable.mpr ⟨ram, noReserved⟩

def ramRegion : MemoryRegion :=
  { base := ⟨0, PhysAddr.zero_inBounds⟩, size := 0x600000, regionType := .usable, name := "Boot RAM" }

theorem initFromMemmap_sound_ram :
    ∃ manager, (new (fun _ => 0#8) 0x600000).initFromMemmap [ramRegion] = some manager ∧
      ∀ frame, frame < manager.frameAllocator.totalFrames →
        (manager.frameAllocator.isFrameReserved frame = false ↔ Allocatable [ramRegion] frame) := by
  obtain ⟨manager, loaded, sound⟩ := initFromMemmap_sound (fun _ => 0#8) 0x600000 [ramRegion]
    (by simp [ramRegion])
  refine ⟨manager, loaded, sound.mpr fun frame tracked _ => ⟨ramRegion, ?_, ?_⟩⟩
  · have met : ramRegion.meets frame = true := by
      refine decide_eq_true ?_
      simp only [ramRegion, frameSize] at tracked ⊢
      omega
    simp [lastMeeting, met]
  · refine iff_of_true rfl ⟨fun address inFrame => ⟨ramRegion, by simp, rfl, ?_⟩, ?_⟩
    · simp only [MemoryRegion.Covers, ramRegion, frameSize] at *
      omega
    · intro entry member reserved
      rw [List.mem_singleton.mp member] at reserved
      exact absurd rfl reserved

def firmwareRegion : MemoryRegion :=
  { base := ⟨0x500000, by decide⟩, size := 0x1000, regionType := .reserved, name := "Boot Reserved" }

/-- A firmware region that is listed before the RAM around it ends up free. -/
theorem initFromMemmap_frees_firmware :
    ¬∀ (bitmap : Bitmap 8) (totalMemoryBytes : Nat) (entries : List MemoryRegion),
      (∀ entry ∈ entries, entry.base.asU64 + entry.size < 2 ^ 52) →
        ∃ manager, (new bitmap totalMemoryBytes).initFromMemmap entries = some manager ∧
          ∀ frame, frame < manager.frameAllocator.totalFrames →
            (manager.frameAllocator.isFrameReserved frame = false ↔ Allocatable entries frame) := by
  intro claimed
  have bounded : ∀ entry ∈ [firmwareRegion, ramRegion],
      entry.base.asU64 + entry.size < 2 ^ 52 := by
    simp [firmwareRegion, ramRegion]
  obtain ⟨manager, loaded, sound⟩ := claimed (fun _ => 0#8) 0x600000 _ bounded
  obtain ⟨other, loadedAgain, total, bits⟩ :=
    initFromMemmap_spec (fun _ => 0#8) 0x600000 [firmwareRegion, ramRegion] bounded
  obtain rfl := Option.some.inj (loaded.symm.trans loadedAgain)
  have tracked : 0x500 < manager.frameAllocator.totalFrames := by
    rw [total]
    decide
  have free := (bits 0x500 tracked).mpr ⟨?_, ?_⟩
  · obtain ⟨_, noReserved, _⟩ := (sound 0x500 tracked).mp free
    exact noReserved firmwareRegion (by simp) (by decide) 0x500000 rfl ⟨by decide, by decide⟩
  · unfold InStandardReservation
    decide
  · intro entry found
    rw [show lastMeeting [firmwareRegion, ramRegion] 0x500 = some ramRegion from rfl] at found
    obtain rfl := Option.some.inj found
    rfl

end PhysicalMemoryManager

end ArcadiaOs.Memory
