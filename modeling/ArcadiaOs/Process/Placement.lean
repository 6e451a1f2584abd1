import ArcadiaOs.Process.Opening
import Mathlib.Logic.Relation

/-!
A launch as a row of placements: a frame is taken and filled, and a page is mapped to
it.  All a process reaches through its lower half are frames it was given.
-/

namespace ArcadiaOs.Process

open Lib Memory PhysicalFrameAllocator

/-- An unused entry, or one that is no huge page and, in a page table, maps an owned frame. -/
def OwnedEntry (owned : Nat → Prop) (height : Nat) (entry : PageTableEntry) : Prop :=
  entry.bits = 0 ∨ entry.hugePage = false ∧ (height = 1 → owned entry.addr)

def OwnedTables (owned : Nat → Prop) (covers : Nat → Prop) (level : Nat → Nat) (pml4 : Nat)
    (memory : Memory) : Prop :=
  ∀ table index, level table ≠ 0 → index < 512 → (table = pml4 → covers index) →
    OwnedEntry owned (level table) (entryAt memory (table + 8 * index))

section Map

variable {owned covers : Nat → Prop} {level : Nat → Nat} {pml4 page frame flags : Nat}
  {memory memory' : Memory} {pmm pmm' : PhysicalFrameAllocator}

theorem OwnedTables.maps {count table3 table2 table1 : Nat} (mine : OwnedTables owned covers level pml4 memory)
    (tables : Tables covers level pml4 memory pmm) (covered : covers (p4Index page))
    (maps : Maps memory (grants count pmm) memory' pml4 page frame flags table3 table2 table1)
    (aligned : frame % 4096 = 0) (small : flags < 8) (present : flags.testBit 0 = true)
    (bound : frame < 2 ^ 52) (given : owned frame) :
    OwnedTables owned covers (extended level (grants count pmm) table3 table2 table1) pml4 memory' := by
  obtain ⟨level3, level2, level1⟩ := tables.extended_levels covered maps
  have root := (tables.root pml4).mpr rfl
  have level4 : extended level (grants count pmm) table3 table2 table1 pml4 = 4 := by
    rw [tables.extended_old (by omega), root]
  have linked : ∀ {height slot next : Nat}, height ≠ 1 → Link (cleared memory (grants count pmm))
      (grants count pmm) memory' flags slot next → OwnedEntry owned height (entryAt memory' slot) := by
    intro height slot next above link
    have opens := link.opens small present fun member =>
      ⟨(mem_grants member).1, (mem_grants member).2.1⟩
    exact .inr ⟨opens.2.1, fun last => absurd last above⟩
  intro table index known inside scope
  by_cases on4 : table = pml4 ∧ index = p4Index page
  · obtain ⟨rfl, rfl⟩ := on4
    exact linked (by omega) maps.link4
  by_cases on3 : table = table3 ∧ index = p3Index page
  · obtain ⟨rfl, rfl⟩ := on3
    exact linked (by omega) maps.link3
  by_cases on2 : table = table2 ∧ index = p2Index page
  · obtain ⟨rfl, rfl⟩ := on2
    exact linked (by omega) maps.link2
  by_cases on1 : table = table1 ∧ index = p1Index page
  · obtain ⟨rfl, rfl⟩ := on1
    have leaf := open_new aligned bound small present
    have entry : entryAt memory' (table + 8 * p1Index page) = ⟨frame + flags⟩ :=
      congrArg PageTableEntry.mk maps.leaf
    rw [entry]
    refine .inr ⟨leaf.2.1, fun _ => ?_⟩
    rw [leaf.2.2.1]
    exact given
  -- The entry is not on the path: it is an unused one of a new table, or it stays.
  by_cases new : table ∈ grants count pmm
  · have start := (mem_grants new).1
    have off := tables.off_path covered maps start inside on4 on3 on2 on1
    exact .inl (by rw [entryAt, off, cleared_taken memory start inside new])
  · have old : extended level (grants count pmm) table3 table2 table1 table = level table := if_neg new
    rw [old] at known ⊢
    have start := tables.aligned table known
    have off := tables.off_path covered maps start inside on4 on3 on2 on1
    rw [entryAt, off, cleared_other memory start inside new]
    exact mine table index known inside scope

theorem MapTo.Documented.mapped_owned {mapTo : MapTo} (documented : mapTo.Documented)
    (tables : Tables covers level pml4 memory pmm) (covered : covers (p4Index page))
    (mine : OwnedTables owned covers level pml4 memory) (given : owned frame)
    (done : mapTo memory pmm pml4 page frame flags = (.ok (), memory', pmm'))
    (pageAligned : page % 4096 = 0) (aligned : frame % 4096 = 0) (bound : frame < 2 ^ 52)
    (small : flags < 8) (present : flags.testBit 0 = true) :
    ∃ level', Mapped covers level pml4 memory pmm page frame flags memory' pmm' level' ∧
      OwnedTables owned covers level' pml4 memory' := by
  obtain ⟨count, _, rfl, table3, table2, table1, maps⟩ := documented.maps covers level memory pmm
    pml4 page frame flags memory' pmm' tables covered pageAligned aligned bound small present done
  exact ⟨_, tables.mapped covered maps aligned bound small present,
    mine.maps tables covered maps aligned small present bound given⟩

end Map

structure Placement (mapTo : MapTo) (pml4 : Nat) (before after : Kernel) (frame : PhysAddr)
    (filled : Memory) (virt flags : Nat) : Prop where
  given : before.pmm.allocateFrame.1 = some frame
  others : ∀ place, place / 4096 ≠ frame.asU64 / 4096 → filled place = before.memory place
  small : flags < 8
  present : flags.testBit 0 = true
  maps : mapTo filled before.pmm.allocateFrame.2 pml4 (virt / 4096 * 4096) frame.asU64 flags =
    (.ok (), after.memory, after.pmm)

def Places (mapTo : MapTo) (pml4 : Nat) (before after : Kernel) : Prop :=
  ∃ frame filled virt flags, Placement mapTo pml4 before after frame filled virt flags

section Row

variable {mapTo : MapTo} {elfData : ElfData} {elfInfo : ElfLoadInfo} {seg : ElfSegment} {pml4 : Nat}
  {kernel kernel' : Kernel}

theorem mapUserPage_places {middle : Kernel} {frame : PhysAddr} {virt flags : Nat}
    (given : kernel.pmm.allocateFrame.1 = some frame) (taken : middle.pmm = kernel.pmm.allocateFrame.2)
    (others : ∀ place, place / 4096 ≠ frame.asU64 / 4096 → middle.memory place = kernel.memory place)
    (small : flags < 8) (present : flags.testBit 0 = true)
    (done : mapUserPage mapTo pml4 virt frame.asU64 flags middle = .ok () kernel') :
    Places mapTo pml4 kernel kernel' := by
  have aligned : frame.asU64 % 4096 = 0 := (allocateFrame_granted given).aligned
  obtain ⟨_, _, maps⟩ := mapUserPage_ok done
  rw [taken, show frame.asU64 / 4096 * 4096 = frame.asU64 by omega] at maps
  exact ⟨frame, middle.memory, virt, flags, given, others, small, present, maps⟩

theorem Places.later (documented : mapTo.Documented) (places : Places mapTo pml4 kernel kernel') :
    kernel.pmm.nextFree < kernel'.pmm.nextFree := by
  obtain ⟨frame, filled, virt, flags, placement⟩ := places
  have granted := allocateFrame_granted placement.given
  obtain ⟨count, _, took⟩ := documented.allocates filled kernel.pmm.allocateFrame.2 pml4
    (virt / 4096 * 4096) frame.asU64 flags
  rw [placement.maps] at took
  have grown := (allocations_grown count kernel.pmm.allocateFrame.2).nextFree
  rw [← took] at grown
  exact Nat.lt_of_lt_of_le granted.next grown

theorem loadPage_places {pageIdx : Nat} (near : pageIdx ≤ kernel.pmm.nextFree)
    (done : loadPage mapTo elfData pml4 seg pageIdx kernel = .ok () kernel') :
    Places mapTo pml4 kernel kernel' := by
  obtain ⟨frame, src, middle, given, _, taken, _, others, _, done⟩ := loadPage_filled near done
  obtain ⟨small, present, _⟩ := seg.flags_small
  exact mapUserPage_places given taken others small present done

variable (documented : mapTo.Documented)
include documented

theorem loadPages_places {count index : Nat} (near : index ≤ kernel.pmm.nextFree)
    (done : loadPages mapTo elfData pml4 seg count index kernel = .ok () kernel') :
    Relation.ReflTransGen (Places mapTo pml4) kernel kernel' := by
  induction count generalizing index kernel with
  | zero =>
      obtain ⟨_, rfl⟩ := pure_ok.mp done
      exact .refl
  | succ count ih =>
      obtain ⟨_, middle, first, rest⟩ := bind_ok.mp done
      have places := loadPage_places near first
      have later := places.later documented
      exact .head places (ih (by omega) rest)

theorem loadSegments_places {segments : List ElfSegment}
    (done : loadSegments mapTo elfData pml4 segments kernel = .ok () kernel') :
    Relation.ReflTransGen (Places mapTo pml4) kernel kernel' := by
  induction segments generalizing kernel with
  | nil =>
      obtain ⟨_, rfl⟩ := pure_ok.mp done
      exact .refl
  | cons seg rest ih =>
      obtain ⟨_, middle, first, later⟩ := bind_ok.mp done
      exact .trans (loadPages_places documented (Nat.zero_le _) first) (ih later)

/-- Up to the frame on its kernel stack, a launch is a row of placements. -/
theorem Stages.places {slot : Nat} {loaded stacked topped : Kernel} {userStack kernelStack : PhysAddr}
    (stages : Stages mapTo elfData elfInfo slot pml4 kernel kernel' loaded stacked topped userStack
      kernelStack) : Relation.ReflTransGen (Places mapTo pml4) kernel topped := by
  have cleared : ∀ {before : Kernel} {frame : PhysAddr}, before.pmm.allocateFrame.1 = some frame →
      ∀ place, place / 4096 ≠ frame.asU64 / 4096 →
        (claimed before frame).memory place = before.memory place := by
    intro before frame given place other
    have aligned : frame.asU64 % 4096 = 0 := (allocateFrame_granted given).aligned
    exact Memory.fill_other (by omega)
  have user : Places mapTo pml4 loaded stacked := by
    refine mapUserPage_places stages.givenUser ?_ ?_ ?_ ?_ stages.mapsUser
    · rfl
    · exact cleared stages.givenUser
    · decide
    · decide
  have last : Places mapTo pml4 stacked topped := by
    refine mapUserPage_places stages.givenKernel ?_ ?_ ?_ ?_ stages.mapsKernel
    · rfl
    · exact cleared stages.givenKernel
    · decide
    · decide
  exact ((loadSegments_places documented stages.loads).tail user).tail last

end Row

/-- The tables of a process in the making: what they map in the lower half was free to begin with. -/
structure Owned (origin : PhysicalFrameAllocator) (pml4 : Nat) (level : Half → Nat → Nat)
    (kernel : Kernel) : Prop where
  space : Space Half.covers level pml4 kernel
  grown : Grown origin kernel.pmm
  lower : OwnedTables (fun frame => origin.isFrameReserved (frame / 4096) = false)
    (Half.covers .lower) (level .lower) pml4 kernel.memory

section Owned

variable {mapTo : MapTo} (documented : mapTo.Documented) {origin : PhysicalFrameAllocator}
  {pml4 : Nat} {level : Half → Nat → Nat} {kernel kernel' : Kernel}
include documented

theorem Owned.step (owned : Owned origin pml4 level kernel) (places : Places mapTo pml4 kernel kernel') :
    ∃ level', Owned origin pml4 level' kernel' := by
  obtain ⟨frame, filled, virt, flags, placement⟩ := places
  have granted := allocateFrame_granted placement.given
  have aligned : frame.asU64 % 4096 = 0 := granted.aligned
  have number : frame.asU64 / 4096 = kernel.pmm.nextFree := granted.frame
  have free := (owned.space.sound .lower).free granted.bound
  let middle : Kernel := { kernel with memory := filled, pmm := kernel.pmm.allocateFrame.2 }
  have others : ∀ place, kernel.pmm.isFrameReserved (place / 4096) = true →
      filled place = kernel.memory place := by
    intro place reserved
    apply placement.others
    intro same
    rw [same, number, free] at reserved
    cases reserved
  have space : Space Half.covers level pml4 middle :=
    (owned.space.claimed .lower (allocateFrame_grown _) granted.sound others).1
  have fresh : origin.isFrameReserved (frame.asU64 / 4096) = false := by
    rw [number]
    by_contra held
    rw [owned.grown.reserved _ (by simpa using held)] at free
    cases free
  have mine : OwnedTables (fun frame => origin.isFrameReserved (frame / 4096) = false)
      (Half.covers .lower) (level .lower) pml4 filled := by
    intro table index known inside scope
    rw [entryAt, owned.space.untouched others known inside]
    exact owned.lower table index known inside scope
  have grown := owned.grown.trans (allocateFrame_grown _)
  obtain ⟨part, covered⟩ := @Half.covers_all (p4Index (virt / 4096 * 4096))
  cases part with
  | lower =>
      obtain ⟨level', mapped, still⟩ := documented.mapped_owned (space.part .lower) covered mine fresh
        placement.maps (Nat.mul_mod_left _ _) aligned frame.inBounds placement.small placement.present
      obtain ⟨after, grows⟩ := space.mapped covered mapped
      refine ⟨_, after, grown.trans grows.grown, ?_⟩
      rw [withPart_same]
      exact still
  | upper =>
      obtain ⟨level', mapped⟩ := documented.mapped (space.part .upper) covered
        placement.maps (Nat.mul_mod_left _ _) aligned frame.inBounds placement.small placement.present
      obtain ⟨after, grows⟩ := space.mapped covered mapped
      refine ⟨_, after, grown.trans grows.grown, ?_⟩
      rw [withPart_other level level' (by decide)]
      intro table index known inside scope
      rw [entryAt, space.mapped_same covered (by decide) mapped known inside scope]
      exact mine table index known inside scope

theorem Owned.run (owned : Owned origin pml4 level kernel)
    (run : Relation.ReflTransGen (Places mapTo pml4) kernel kernel') :
    ∃ level', Owned origin pml4 level' kernel' := by
  induction run with
  | refl => exact ⟨level, owned⟩
  | tail _ places ih =>
      obtain ⟨level', before⟩ := ih
      exact before.step documented places

end Owned

theorem opened_owned {level : Nat → Nat} {kernel : Kernel} {pml4 : PhysAddr}
    (given : kernel.pmm.allocateFrame.1 = some pml4) (slot : Nat) (sound : kernel.pmm.NextFreeSound)
    (half : KernelHalf level kernel) :
    Owned kernel.pmm pml4.asU64 (bothLevels level pml4.asU64) (opened kernel slot pml4) where
  space := half.opened_space given sound
  grown := allocateFrame_grown kernel.pmm
  lower := by
    intro table index known inside scope
    obtain rfl := rootLevel_known known
    exact .inl (opened_lower (scope rfl))

end ArcadiaOs.Process
