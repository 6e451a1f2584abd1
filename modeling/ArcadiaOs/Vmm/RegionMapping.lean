import ArcadiaOs.Vmm.Mappings

/-!
`map_region` maps page after page and stops at the first one that is refused, without taking
back the pages in front of it.
-/

namespace ArcadiaOs.Vmm

open Lib Memory Process

/-- Every page of a range is mapped to its frame, and nothing else is mapped differently. -/
structure RangeMapped (mapper : Mapper) (virt phys count : Nat) (before after : PageTable 4) : Prop where
  pages : ∀ index < count, ∀ offset < 4096,
    mapper.translateAddr after (pageAt virt index + offset) = some (phys + index * 4096 + offset)
  others : ∀ place : VirtAddr,
    (∀ index < count, ¬(pageAt virt index ≤ place.asU64 ∧ place.asU64 < pageAt virt index + 4096)) →
    mapper.translateAddr after place.asU64 = mapper.translateAddr before place.asU64

/-- What a call of `map_region` should do: map the whole range, or nothing when it fails. -/
structure AllOrNothing (mapper : Mapper) (system : System) (virt : VirtAddr) (phys : PhysAddr)
    (count : Nat) (flags : PageTableFlags) : Prop where
  all : ∀ system', mapRegion mapper virt phys count flags system = .ok () system' →
    RangeMapped mapper virt.asU64 phys.asU64 count system.vmm.pageTable system'.vmm.pageTable
  nothing : ∀ reason system',
    mapRegion mapper virt phys count flags system = .error (.error reason) system' →
    (∀ place : VirtAddr, mapper.translateAddr system'.vmm.pageTable place.asU64 =
      mapper.translateAddr system.vmm.pageTable place.asU64) ∧
    system'.vmm.mappedRegions = system.vmm.mappedRegions

/-- The pages of the region in front of an index with their frames, the last one first. -/
def regionBefore (virt phys : Nat) : Nat → List (Nat × Nat)
  | 0 => []
  | turns + 1 => (pageAt virt turns, pageAt phys turns) :: regionBefore virt phys turns

/-- Why the loop stops at a page, if it gets there: an address that cannot be, or the answer of
`map_to` after the pages in front of it. -/
def turnStop (slot : PageTable 4 → Nat → Slot) (system : System) (virt phys : Nat)
    (flags : PageTableFlags) (index : Nat) : Option VmmStop :=
  if canonical (pageAt virt index) = true ∧ pageAt phys index < 2 ^ 52 then
    match answerAfter (slot system.vmm.pageTable) system.kernel.pmm flags
        (regionBefore virt phys index) (pageAt virt index) with
    | .ok () => none
    | .error reason => some reason.stop
  else some .panic

theorem turnStop_none {slot : PageTable 4 → Nat → Slot} {system : System} {virt phys : Nat}
    {flags : PageTableFlags} {index : Nat} :
    turnStop slot system virt phys flags index = none ↔
      canonical (pageAt virt index) = true ∧ pageAt phys index < 2 ^ 52 ∧
      answerAfter (slot system.vmm.pageTable) system.kernel.pmm flags
        (regionBefore virt phys index) (pageAt virt index) = .ok () := by
  rw [turnStop]
  split
  · rename_i inside
    split
    · rename_i answered
      exact iff_of_true rfl ⟨inside.1, inside.2, answered⟩
    · rename_i answered
      refine iff_of_false nofun fun all => ?_
      rw [all.2.2] at answered
      cases answered
  · rename_i outside
    exact iff_of_false nofun fun all => outside ⟨all.1, all.2.1⟩

theorem mem_regionBefore {virt phys turns : Nat} {mapping : Nat × Nat} :
    mapping ∈ regionBefore virt phys turns ↔
      ∃ turn < turns, mapping = (pageAt virt turn, pageAt phys turn) := by
  induction turns with
  | zero => exact ⟨fun member => absurd member List.not_mem_nil, fun ⟨_, bound, _⟩ => absurd bound (Nat.not_lt_zero _)⟩
  | succ turns ih =>
      rw [regionBefore, List.mem_cons, ih]
      constructor
      · rintro (here | ⟨turn, bound, same⟩)
        · exact ⟨turns, Nat.lt_succ_self _, here⟩
        · exact ⟨turn, Nat.lt_succ_of_lt bound, same⟩
      · rintro ⟨turn, bound, same⟩
        rcases Nat.lt_succ_iff_lt_or_eq.mp bound with earlier | rfl
        · exact .inr ⟨turn, earlier, same⟩
        · exact .inl same

theorem length_regionBefore (virt phys turns : Nat) :
    (regionBefore virt phys turns).length = turns := by
  induction turns with
  | zero => rfl
  | succ turns ih => rw [regionBefore, List.length_cons, ih]

theorem VirtAddr.small (virt : VirtAddr) : virt.asU64 < 2 ^ 64 := by
  have bounds := canonical_cases virt.isCanonical
  omega

section Addresses

variable {virt index : Nat} (reached : ∀ turn ≤ index, canonical (pageAt virt turn) = true)
include reached

theorem turns_bounded (small : virt < 2 ^ 64) (aligned : virt % 4096 = 0) : index < 2 ^ 37 := by
  by_contra long
  have value (turn : Nat) : pageAt virt turn = (virt + turn * 4096) % 2 ^ 64 := by
    rw [pageAt, wrap64_eq, wrap64_eq, vmmPageSize]
    omega
  have start := canonical_cases (reached 0 (Nat.zero_le _))
  rw [value] at start
  -- the turn that comes to the first address that is not canonical
  obtain ⟨turn, before, stops⟩ : ∃ turn ≤ index, pageAt virt turn = 2 ^ 47 := by
    rcases start with lower | ⟨upper, _⟩
    · exact ⟨(2 ^ 47 - virt) / 4096, by omega, by rw [value]; omega⟩
    · exact ⟨(2 ^ 64 + 2 ^ 47 - virt) / 4096, by omega, by rw [value]; omega⟩
  have isCanonical := reached turn before
  rw [stops] at isCanonical
  exact absurd isCanonical (by decide)

theorem region_frame (phys : PhysAddr) (small : virt < 2 ^ 64) (aligned : virt % 4096 = 0) :
    pageAt phys.asU64 index = phys.asU64 + index * 4096 := by
  have bounded := turns_bounded reached small aligned
  have inBounds := phys.inBounds
  exact pageAt_inside (by omega)

theorem region_fresh (phys : Nat) (small : virt < 2 ^ 64) (aligned : virt % 4096 = 0) :
    ∀ mapping ∈ regionBefore virt phys index, ¬SamePage 4 (pageAt virt index) mapping.1 := by
  have bounded := turns_bounded reached small aligned
  intro mapping member same
  obtain ⟨turn, earlier, rfl⟩ := mem_regionBefore.mp member
  rw [samePage_canonical (reached index (Nat.le_refl _)) (reached turn (Nat.le_of_lt earlier))] at same
  rw [pageAt, pageAt, wrap64_eq, wrap64_eq, wrap64_eq, wrap64_eq, vmmPageSize] at same
  omega

end Addresses

section Run

variable {mapper : Mapper} {tables : PageTable 4 → Prop} (finds : mapper.Finds tables)
  {slot : PageTable 4 → Nat → Slot} (mapsBy : mapper.MapsBy tables slot) {flags : PageTableFlags}
  {before system : System} {virt phys : Nat}
  (small : virt < 2 ^ 64) (aligned : virt % 4096 = 0) (physAligned : phys % 4096 = 0)

theorem mapRegionFrom_outside {index : Nat} (count : Nat)
    (outside : ¬(canonical (pageAt virt index) = true ∧ pageAt phys index < 2 ^ 52)) :
    mapRegionFrom mapper virt phys flags (count + 1) index system = .error .panic system := by
  by_cases isCanonical : canonical (pageAt virt index) = true
  · have page : VirtAddr.new? (wrap64 (virt + wrap64 (index * vmmPageSize))) =
        some ⟨pageAt virt index, isCanonical⟩ := dif_pos isCanonical
    have frame : PhysAddr.new? (wrap64 (phys + wrap64 (index * vmmPageSize))) = none :=
      dif_neg fun bound => outside ⟨isCanonical, bound⟩
    rw [mapRegionFrom, page, frame]
    rfl
  · have page : VirtAddr.new? (wrap64 (virt + wrap64 (index * vmmPageSize))) = none :=
      dif_neg isCanonical
    rw [mapRegionFrom, page]
    rfl

theorem mapRegionFrom_inside {index : Nat} (count : Nat)
    (isCanonical : canonical (pageAt virt index) = true) (bound : pageAt phys index < 2 ^ 52) :
    mapRegionFrom mapper virt phys flags (count + 1) index system =
      (mapPage mapper ⟨pageAt virt index, isCanonical⟩ ⟨pageAt phys index, bound⟩ flags >>= fun _ =>
        mapRegionFrom mapper virt phys flags count (index + 1)) system := by
  have page : VirtAddr.new? (wrap64 (virt + wrap64 (index * vmmPageSize))) =
      some ⟨pageAt virt index, isCanonical⟩ := dif_pos isCanonical
  have frame : PhysAddr.new? (wrap64 (phys + wrap64 (index * vmmPageSize))) =
      some ⟨pageAt phys index, bound⟩ := dif_pos bound
  rw [mapRegionFrom, page, frame]

include finds mapsBy small aligned physAligned

theorem mapRegionFrom_runs (count index : Nat)
    (placed : Placed flags (regionBefore virt phys index) before system)
    (opened : Opened tables slot (regionBefore virt phys index) before system)
    (passed : ∀ turn < index, turnStop slot before virt phys flags turn = none) :
    (∃ last, mapRegionFrom mapper virt phys flags count index system = .ok () last ∧
      Placed flags (regionBefore virt phys (index + count)) before last ∧
      ∀ turn < index + count, turnStop slot before virt phys flags turn = none) ∨
    ∃ turn < index + count, ∃ stop last,
      mapRegionFrom mapper virt phys flags count index system = .error stop last ∧
      Placed flags (regionBefore virt phys turn) before last ∧
      turnStop slot before virt phys flags turn = some stop ∧
      ∀ earlier < turn, turnStop slot before virt phys flags earlier = none := by
  induction count generalizing index system with
  | zero => exact .inl ⟨system, rfl, placed, passed⟩
  | succ count ih =>
      by_cases inside : canonical (pageAt virt index) = true ∧ pageAt phys index < 2 ^ 52
      · have fresh := region_fresh (fun turn bound => by
          rcases Nat.le_iff_lt_or_eq.mp bound with earlier | rfl
          · exact (turnStop_none.mp (passed turn earlier)).1
          · exact inside.1) phys small aligned
        have pageAligned := page_aligned index aligned
        have frameAligned := page_aligned index physAligned
        rw [mapRegionFrom_inside count inside.1 inside.2, bind_apply]
        have turned := @mapPage_after mapper tables finds slot mapsBy flags _ before system
          ⟨pageAt virt index, inside.1⟩ ⟨pageAt phys index, inside.2⟩ pageAligned frameAligned placed
          opened fresh
        rcases turned with
          ⟨answered, middle, ran, placedNext, openedNext⟩ | ⟨reason, last, answered, ran, kept⟩
        · have passedNext : ∀ turn < index + 1, turnStop slot before virt phys flags turn = none := by
            intro turn bound
            rcases Nat.lt_succ_iff_lt_or_eq.mp bound with earlier | rfl
            · exact passed turn earlier
            · exact turnStop_none.mpr ⟨inside.1, inside.2, answered⟩
          have rest := ih (index + 1) placedNext openedNext passedNext
          rw [Nat.add_right_comm, Nat.add_assoc] at rest
          simp only [ran]
          exact rest
        · refine .inr ⟨index, by omega, reason.stop, last, ?_, kept, ?_, passed⟩
          · simp only [ran]
          · rw [turnStop, if_pos inside, answered]
      · refine .inr ⟨index, by omega, .panic, system, mapRegionFrom_outside count inside, placed, ?_, passed⟩
        rw [turnStop, if_neg inside]

end Run

theorem mapRegion_runs {mapper : Mapper} {tables : PageTable 4 → Prop} (finds : mapper.Finds tables)
    {slot : PageTable 4 → Nat → Slot} (mapsBy : mapper.MapsBy tables slot) (system : System)
    (inside : tables system.vmm.pageTable) (virt : VirtAddr) (phys : PhysAddr) (count : Nat) (flags : PageTableFlags)
    (aligned : virt.asU64 % 4096 = 0) (physAligned : phys.asU64 % 4096 = 0) :
    (∃ last, mapRegion mapper virt phys count flags system = .ok () last ∧
      Placed flags (regionBefore virt.asU64 phys.asU64 count) system last ∧
      ∀ turn < count, turnStop slot system virt.asU64 phys.asU64 flags turn = none) ∨
    ∃ turn < count, ∃ stop last,
      mapRegion mapper virt phys count flags system = .error stop last ∧
      Placed flags (regionBefore virt.asU64 phys.asU64 turn) system last ∧
      turnStop slot system virt.asU64 phys.asU64 flags turn = some stop ∧
      ∀ earlier < turn, turnStop slot system virt.asU64 phys.asU64 flags earlier = none := by
  have answered : mapRegion mapper virt phys count flags system =
      mapRegionFrom mapper virt.asU64 phys.asU64 flags count 0 system := by
    rw [mapRegion, vmmPageSize, if_neg (by omega)]
  have runs := mapRegionFrom_runs finds mapsBy virt.small aligned physAligned count 0
    (.nil flags system) (.nil slot inside) fun _ bound => absurd bound (Nat.not_lt_zero _)
  rw [Nat.zero_add, ← answered] at runs
  exact runs

section Placed

variable {mapper : Mapper} {tables : PageTable 4 → Prop} (finds : mapper.Finds tables)
  {flags : PageTableFlags} {pages : List (Nat × Nat)} {before after : System}
  (placed : Placed flags pages before after)
include finds placed

theorem Placed.translate {page frame offset : Nat} (member : (page, frame) ∈ pages)
    (aligned : page % 4096 = 0) (bound : offset < 4096) :
    mapper.translateAddr after.vmm.pageTable (page + offset) =
      if frame + flags.bits ≠ 0 then some (frame + offset) else none := by
  have here : SamePage 4 (page + offset) page := by
    rw [SamePage]
    omega
  have inside : (page + offset) % 4096 = offset := by omega
  rw [finds.translates, PageTable.translateAddr, placed.leaves _ member _ here]
  split
  · rw [Option.map_some, inside]
  · rfl

theorem Placed.translate_other {place : VirtAddr}
    (apart : ∀ mapping ∈ pages, canonical mapping.1 = true ∧ mapping.1 % 4096 = 0 ∧
      ¬(mapping.1 ≤ place.asU64 ∧ place.asU64 < mapping.1 + 4096)) :
    mapper.translateAddr after.vmm.pageTable place.asU64 =
      mapper.translateAddr before.vmm.pageTable place.asU64 := by
  refine finds.translate_congr (placed.kept _ fun mapping member same => ?_)
  obtain ⟨isCanonical, aligned, outside⟩ := apart mapping member
  rw [samePage_canonical place.isCanonical isCanonical] at same
  omega

end Placed

section Outcomes

variable {mapper : Mapper} {tables : PageTable 4 → Prop} (finds : mapper.Finds tables)
  {slot : PageTable 4 → Nat → Slot} {system last : System} {virt : VirtAddr} {phys : PhysAddr}
  {count : Nat} {flags : PageTableFlags}
include finds

theorem allOrNothing_of_ok (aligned : virt.asU64 % 4096 = 0)
    (ran : mapRegion mapper virt phys count flags system = .ok () last)
    (placed : Placed flags (regionBefore virt.asU64 phys.asU64 count) system last)
    (passed : ∀ turn < count, turnStop slot system virt.asU64 phys.asU64 flags turn = none) :
    AllOrNothing mapper system virt phys count flags ↔
      count = 0 ∨ phys.asU64 ≠ 0 ∨ flags.bits ≠ 0 := by
  have mapped {index : Nat} (bound : index < count) {offset : Nat} (inPage : offset < 4096) :=
    placed.translate finds (mem_regionBefore.mpr ⟨index, bound, rfl⟩)
      (page_aligned index aligned) inPage
  have frame {index : Nat} (bound : index < count) := region_frame (fun turn earlier =>
    (turnStop_none.mp (passed turn (Nat.lt_of_le_of_lt earlier bound))).1) phys virt.small aligned
  constructor
  · intro property
    by_cases empty : count = 0
    · exact .inl empty
    have first := (property.all last ran).pages 0 (by omega) 0 (by decide)
    rw [mapped (by omega) (by decide), frame (by omega)] at first
    split at first
    · rename_i used
      exact .inr (by omega)
    · cases first
  · intro condition
    constructor
    case nothing =>
      intro reason system' done
      rw [ran] at done
      cases done
    case all =>
      intro system' done
      rw [ran] at done
      cases done
      constructor
      case pages =>
        intro index bound offset inPage
        rw [mapped bound inPage, frame bound, if_pos (by omega)]
      case others =>
        intro place outside
        apply placed.translate_other finds
        intro mapping member
        obtain ⟨index, bound, rfl⟩ := mem_regionBefore.mp member
        exact ⟨(turnStop_none.mp (passed index bound)).1, page_aligned index aligned,
          outside index bound⟩

theorem allOrNothing_of_stop {turn : Nat} {stop : VmmStop}
    (ran : mapRegion mapper virt phys count flags system = .error stop last)
    (placed : Placed flags (regionBefore virt.asU64 phys.asU64 turn) system last) :
    AllOrNothing mapper system virt phys count flags ↔ stop = .panic ∨ turn = 0 := by
  obtain ⟨regions, listed, length⟩ := placed.regions
  rw [length_regionBefore] at length
  constructor
  · intro property
    cases stop with
    | panic => exact .inl rfl
    | error reason =>
        obtain ⟨_, same⟩ := property.nothing reason last ran
        rw [same, List.self_eq_append_right] at listed
        rw [listed, List.length_nil] at length
        exact .inr length.symm
  · intro condition
    constructor
    case all =>
      intro system' done
      rw [ran] at done
      cases done
    case nothing =>
      intro reason system' done
      rw [ran] at done
      cases done
      obtain rfl : turn = 0 := condition.resolve_left nofun
      constructor
      · exact fun place => placed.translate_other finds fun _ member =>
          absurd member List.not_mem_nil
      · rw [listed, List.length_eq_zero_iff.mp length, List.append_nil]

end Outcomes

/-- `map_region` maps all or nothing exactly when it has nothing to map, is refused its first page,
comes to an address that cannot be before it is refused a page, or maps every page and leaves no
entry unused. -/
theorem mapRegion_all_or_nothing_iff {mapper : Mapper} {tables : PageTable 4 → Prop}
    (finds : mapper.Finds tables) {slot : PageTable 4 → Nat → Slot}
    (mapsBy : mapper.MapsBy tables slot) (system : System) (inside : tables system.vmm.pageTable)
    (virt : VirtAddr) (phys : PhysAddr) (count : Nat) (flags : PageTableFlags)
    (aligned : virt.asU64 % 4096 = 0) (physAligned : phys.asU64 % 4096 = 0) :
    AllOrNothing mapper system virt phys count flags ↔
      count = 0 ∨ turnStop slot system virt.asU64 phys.asU64 flags 0 ≠ none ∨
      (∃ index < count, turnStop slot system virt.asU64 phys.asU64 flags index = some .panic ∧
        ∀ earlier < index, turnStop slot system virt.asU64 phys.asU64 flags earlier = none) ∨
      (phys.asU64 ≠ 0 ∨ flags.bits ≠ 0) ∧
        ∀ index < count, turnStop slot system virt.asU64 phys.asU64 flags index = none := by
  rcases mapRegion_runs finds mapsBy system inside virt phys count flags aligned physAligned with
    ⟨last, ran, placed, passed⟩ | ⟨turn, bound, stop, last, ran, placed, stopped, passed⟩
  · rw [allOrNothing_of_ok finds aligned ran placed passed]
    constructor
    · rintro (empty | used)
      · exact .inl empty
      · exact .inr (.inr (.inr ⟨used, passed⟩))
    · rintro (empty | first | ⟨index, bound, panics, _⟩ | ⟨used, _⟩)
      · exact .inl empty
      · refine .inl (by_contra fun some => first (passed 0 (Nat.pos_of_ne_zero some)))
      · rw [passed index bound] at panics
        cases panics
      · exact .inr used
  · rw [allOrNothing_of_stop finds ran placed]
    constructor
    · rintro (rfl | rfl)
      · exact .inr (.inr (.inl ⟨turn, bound, stopped, passed⟩))
      · refine .inr (.inl ?_)
        rw [stopped]
        exact nofun
    · rintro (empty | first | ⟨index, _, panics, before⟩ | ⟨_, all⟩)
      · omega
      · exact .inr (by_contra fun later => first (passed 0 (Nat.pos_of_ne_zero later)))
      · rcases Nat.lt_trichotomy index turn with earlier | rfl | after
        · rw [passed index earlier] at panics
          cases panics
        · rw [stopped] at panics
          exact .inl (Option.some.inj panics)
        · rw [before turn after] at stopped
          cases stopped
      · rw [all turn bound] at stopped
        cases stopped

theorem mapRegion_all_boot :
    AllOrNothing treeMapper bootSystem ⟨0x40000000, by decide⟩ ⟨0x600000, by decide⟩ 2 presentFlags :=
  (mapRegion_all_or_nothing_iff treeMapper_finds treeMapper_mapsBy bootSystem (bootTables_tidy _) _ _ 2
    presentFlags (by decide) (by decide)).mpr (.inr (.inr (.inr ⟨by decide, by decide +kernel⟩)))

/-- No request leaves the tables that the mapper is documented on. -/
theorem Mapper.Finds.stable {mapper : Mapper} {tables : PageTable 4 → Prop}
    (finds : mapper.Finds tables) :
    Stable mapper (fun _ _ => True) fun system => tables system.vmm.pageTable := by
  constructor
  · intro system virt phys flags description table' pmm' inside _ aligned physAligned done
    exact finds.mapTo_inside inside trivial aligned physAligned phys.inBounds done
  · intro system virt phys flags reason table' pmm' inside _ aligned physAligned done
    exact finds.mapTo_inside inside trivial aligned physAligned phys.inBounds done
  · intro system virt phys table' inside _ done
    exact finds.unmap_inside inside done
  · intro system virt reason table' inside done
    exact finds.unmap_inside inside done
  · exact fun system inside => inside

theorem mappedSystem_tidy : mappedSystem.vmm.pageTable.Tidy :=
  mapPage_keeps treeMapper_finds.stable ⟨0x40000000, by decide⟩ ⟨0x600000, by decide⟩ trivial bootSystem
    (bootTables_tidy idleMemory)

/-- The second of two pages is mapped already: the call fails, and the first one stays mapped. -/
theorem refused_region_keeps_page : ∃ system',
    mapRegion treeMapper ⟨0x3FFFF000, by decide⟩ ⟨0x700000, by decide⟩ 2 presentFlags mappedSystem =
        .error (.error .alreadyMapped) system' ∧
      treeMapper.translateAddr mappedSystem.vmm.pageTable 0x3FFFF000 = none ∧
      treeMapper.translateAddr system'.vmm.pageTable 0x3FFFF000 = some 0x700000 := by
  have first : turnStop PageTable.slot mappedSystem 0x3FFFF000 0x700000 presentFlags 0 = none := by
    decide +kernel
  have second : turnStop PageTable.slot mappedSystem 0x3FFFF000 0x700000 presentFlags 1 =
      some (.error .alreadyMapped) := by decide +kernel
  rcases mapRegion_runs treeMapper_finds treeMapper_mapsBy mappedSystem mappedSystem_tidy
    ⟨0x3FFFF000, by decide⟩ ⟨0x700000, by decide⟩ 2 presentFlags (by decide) (by decide) with
    ⟨_, _, _, passed⟩ | ⟨turn, bound, stop, last, ran, placed, stopped, _⟩
  · exact absurd (passed 1 (by decide)) (by rw [second]; exact nofun)
  · have here : turn = 1 := by
      by_contra other
      obtain rfl : turn = 0 := by omega
      rw [first] at stopped
      cases stopped
    subst here
    rw [second] at stopped
    obtain rfl := Option.some.inj stopped
    refine ⟨last, ran, by decide, ?_⟩
    have member : (0x3FFFF000, 0x700000) ∈ regionBefore 0x3FFFF000 0x700000 1 := by decide +kernel
    exact placed.translate treeMapper_finds member (by decide) (show 0 < 4096 by decide)

end ArcadiaOs.Vmm
