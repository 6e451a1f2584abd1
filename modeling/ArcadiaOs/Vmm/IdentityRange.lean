import ArcadiaOs.Vmm.RegionMapping

/-!
What `identity_map` leaves in its range.  A page that is translated already is passed over,
wherever it leads, and so is one whose entry is in use; the others lead to themselves.
-/

namespace ArcadiaOs.Vmm

open Lib Memory Process

section Pages

variable (slot : PageTable 4 → Nat → Slot) (system : System) (phys : Nat)

/-- The loop passes over the page: it is translated, or its entry is in use. -/
def passesOver (page : Nat) : Bool :=
  (system.vmm.pageTable.translateAddr page).isSome || decide (slot system.vmm.pageTable page = .used)

/-- The pages in front of an index that are mapped, each to itself, the last one first. -/
def identityBefore : Nat → List (Nat × Nat)
  | 0 => []
  | turns + 1 =>
      if passesOver slot system (pageAt phys turns) then identityBefore turns
      else (pageAt phys turns, pageAt phys turns) :: identityBefore turns

/-- Why the loop stops at a page. -/
def identityStop (flags : PageTableFlags) (index : Nat) : Option VmmStop :=
  if passesOver slot system (pageAt phys index) then none
  else
    match answerAfter (slot system.vmm.pageTable) system.kernel.pmm flags
        (identityBefore slot system phys index) (pageAt phys index) with
    | .ok () => none
    | .error reason => some reason.stop

end Pages

section Lists

variable {slot : PageTable 4 → Nat → Slot} {system : System} {phys : Nat}

theorem mem_identityBefore {turns : Nat} {mapping : Nat × Nat} :
    mapping ∈ identityBefore slot system phys turns ↔
      ∃ turn < turns, passesOver slot system (pageAt phys turn) = false ∧
        mapping = (pageAt phys turn, pageAt phys turn) := by
  induction turns with
  | zero =>
      exact ⟨fun member => absurd member List.not_mem_nil,
        fun ⟨_, bound, _⟩ => absurd bound (Nat.not_lt_zero _)⟩
  | succ turns ih =>
      constructor
      · intro member
        rw [identityBefore] at member
        split at member
        · obtain ⟨turn, bound, found⟩ := ih.mp member
          exact ⟨turn, Nat.lt_succ_of_lt bound, found⟩
        · rename_i maps
          rw [Bool.not_eq_true] at maps
          rcases List.mem_cons.mp member with here | earlier
          · exact ⟨turns, Nat.lt_succ_self _, maps, here⟩
          · obtain ⟨turn, bound, found⟩ := ih.mp earlier
            exact ⟨turn, Nat.lt_succ_of_lt bound, found⟩
      · rintro ⟨turn, bound, maps, same⟩
        rw [identityBefore]
        rcases Nat.lt_succ_iff_lt_or_eq.mp bound with earlier | rfl
        · have member := ih.mpr ⟨turn, earlier, maps, same⟩
          split
          · exact member
          · exact List.mem_cons_of_mem _ member
        · rw [maps, if_neg Bool.false_ne_true, same]
          exact List.mem_cons_self

theorem slotAfter_used_iff {slot : Nat → Slot} {pages : List (Nat × Nat)} {virt : Nat} :
    slotAfter slot pages virt = .used ↔ slot virt = .used := by
  induction pages with
  | nil => rfl
  | cons mapping earlier ih =>
      rw [slotAfter, ← ih]
      cases slotAfter slot earlier virt with
      | used => exact Iff.rfl
      | huge => exact Iff.rfl
      | free missing => exact iff_of_false nofun nofun

end Lists

theorem PageTable.translateAddr_offset (table : PageTable 4) {page offset : Nat}
    (aligned : page % 4096 = 0) (bound : offset < 4096) :
    table.translateAddr (page + offset) = (table.translateAddr page).map (· + offset) := by
  have same : SamePage 4 (page + offset) page := by
    rw [SamePage]
    omega
  rw [PageTable.translateAddr, PageTable.translateAddr, table.found_congr same, Option.map_map]
  cases leads : table.found page with
  | none => rfl
  | some leaf =>
      obtain ⟨height, _, pages, _⟩ := PageTable.leafBy_size leads
      obtain ⟨multiple, size⟩ : 4096 ∣ leaf.size := pages ▸ page_dvd height
      have inPage : (page + offset) % 4096 = offset := by omega
      have number : (page + offset) / 4096 = page / 4096 := by omega
      have inLeaf : (page + offset) % leaf.size = page % leaf.size + offset := by
        rw [size, Nat.mod_mul, Nat.mod_mul, inPage, number, aligned]
        omega
      simp only [Option.map_some, Function.comp_apply, inLeaf, Nat.add_assoc]

section Run

variable {mapper : Mapper} {tables : PageTable 4 → Prop} (finds : mapper.Finds tables)
  {slot : PageTable 4 → Nat → Slot} {flags : PageTableFlags} {before system : System}
  {phys total : Nat}
  (aligned : phys % 4096 = 0) (range : CanonicalRange phys total)
include aligned range

theorem identity_same {index turns : Nat} (bound : index < total) (within : turns ≤ total)
    {mapping : Nat × Nat} (member : mapping ∈ identityBefore slot before phys turns)
    (same : SamePage 4 (pageAt phys index) mapping.1) :
    index < turns ∧ passesOver slot before (pageAt phys index) = false := by
  obtain ⟨turn, earlier, maps, rfl⟩ := mem_identityBefore.mp member
  obtain ⟨page, isCanonical⟩ := range.page bound
  rw [page, range.samePage_iff (Nat.lt_of_lt_of_le earlier within) aligned isCanonical] at same
  obtain rfl : turn = index := by omega
  exact ⟨earlier, maps⟩

theorem identity_fresh {index : Nat} (bound : index < total) :
    ∀ mapping ∈ identityBefore slot before phys index,
      ¬SamePage 4 (pageAt phys index) mapping.1 := by
  intro mapping member same
  have earlier := (identity_same aligned range bound (Nat.le_of_lt bound) member same).1
  exact absurd earlier (Nat.lt_irrefl _)

theorem identity_apart {index : Nat} (bound : index < total) {turns : Nat} (within : turns ≤ total)
    (passed : passesOver slot before (pageAt phys index) = true) :
    ∀ mapping ∈ identityBefore slot before phys turns,
      ¬SamePage 4 (pageAt phys index) mapping.1 := by
  intro mapping member same
  have maps := (identity_same aligned range bound within member same).2
  rw [passed] at maps
  cases maps

variable (mapsBy : mapper.MapsBy tables slot)
include finds mapsBy

/-- One turn of the loop: the page is passed over or mapped, or the loop stops. -/
theorem identityMapPage_turn {index : Nat} (bound : index < total) {page : VirtAddr}
    {frame : PhysAddr} (pageIs : page.asU64 = pageAt phys index)
    (frameIs : frame.asU64 = pageAt phys index)
    (placed : Placed flags (identityBefore slot before phys index) before system)
    (opened : Opened tables slot (identityBefore slot before phys index) before system) :
    (identityStop slot before phys flags index = none ∧
      ∃ last, identityMapPage mapper page frame flags system = .ok () last ∧
        Placed flags (identityBefore slot before phys (index + 1)) before last ∧
        Opened tables slot (identityBefore slot before phys (index + 1)) before last) ∨
    ∃ stop last, identityStop slot before phys flags index = some stop ∧
      identityMapPage mapper page frame flags system = .error stop last := by
  have fresh := @identity_fresh slot before phys total aligned range index bound
  have whole := page_aligned index aligned
  rw [← pageIs] at fresh
  have pageAligned : page.asU64 % 4096 = 0 := by rw [pageIs, whole]
  have frameAligned : frame.asU64 % 4096 = 0 := by rw [frameIs, whole]
  have same := finds.translate_congr (placed.kept page.asU64 fresh)
  rw [finds.translates before.vmm.pageTable] at same
  rw [identityStop, identityBefore, passesOver, ← pageIs]
  cases translated : before.vmm.pageTable.translateAddr page.asU64 with
  | some target =>
      refine .inl ⟨rfl, system, identityMapPage_skips ?_, placed, opened⟩
      rw [same, translated]
      rfl
  | none =>
      rw [translated] at same
      have answer := @Opened.answer mapper tables slot mapsBy flags _ before system page frame pageAligned
        frameAligned opened fresh
      rw [identityMapPage_maps same]
      rcases done : mapper.mapTo system.vmm.pageTable system.kernel.pmm page.asU64 frame.asU64 flags with
        ⟨result, table', pmm'⟩
      rw [done] at answer
      simp only [Option.isSome_none, Bool.false_or, decide_eq_true_eq]
      by_cases used : slot before.vmm.pageTable page.asU64 = .used
      · have rejected : result = .error (.error .pageAlreadyMapped) := by
          rw [answerAfter, slotAfter_used_iff.mpr used] at answer
          exact answer
        subst rejected
        rw [if_pos used, if_pos used]
        refine .inl ⟨rfl, _, rfl, ?_, ?_⟩
        · exact placed.refused finds pageAligned frameAligned opened.inside done
        · exact opened.rejected finds mapsBy pageAligned frameAligned done
      · rw [if_neg used, if_neg used, ← answer]
        cases result with
        | ok value =>
            have placedNext :=
              placed.push finds pageAligned frameAligned done opened.inside fresh "identity map"
            have openedNext :=
              opened.push finds mapsBy pageAligned frameAligned done fresh "identity map"
            have itself : (page.asU64, frame.asU64) = (page.asU64, page.asU64) := by
              rw [frameIs, pageIs]
            rw [itself] at placedNext openedNext
            exact .inl ⟨rfl, _, rfl, placedNext, openedNext⟩
        | error reason =>
            have other : reason ≠ .error .pageAlreadyMapped := by
              rintro rfl
              exact used (slotAfter_used_iff.mp (Slot.used_of_answer answer.symm))
            exact .inr ⟨reason.stop, system.took table' pmm', rfl, by simp only [if_neg other]⟩

theorem identityMapFrom_runs (count index : Nat) (inside : index + count ≤ total)
    (inBounds : phys + total * 4096 ≤ 2 ^ 52)
    (placed : Placed flags (identityBefore slot before phys index) before system)
    (opened : Opened tables slot (identityBefore slot before phys index) before system) :
    (∃ last, identityMapFrom mapper phys flags count index system = .ok () last ∧
      Placed flags (identityBefore slot before phys (index + count)) before last ∧
      ∀ turn, index ≤ turn → turn < index + count →
        identityStop slot before phys flags turn = none) ∨
    ∃ turn < index + count, ∃ stop last,
      identityMapFrom mapper phys flags count index system = .error stop last ∧
      identityStop slot before phys flags turn = some stop := by
  induction count generalizing index system with
  | zero => exact .inl ⟨system, rfl, placed, fun turn above below => by omega⟩
  | succ count ih =>
      have bound : index < total := by omega
      obtain ⟨page, pageIs, value, made⟩ := range.page_made bound
      have frameBound : pageAt phys index < 2 ^ 52 := by omega
      have frameMade : PhysAddr.new? (wrap64 (phys + wrap64 (index * vmmPageSize))) =
          some ⟨pageAt phys index, frameBound⟩ := dif_pos frameBound
      have stepped : identityMapFrom mapper phys flags (count + 1) index system =
          (identityMapPage mapper page ⟨pageAt phys index, frameBound⟩ flags >>= fun _ =>
            identityMapFrom mapper phys flags count (index + 1)) system := by
        rw [identityMapFrom, frameMade]
        simp only [made]
      rw [stepped, bind_apply]
      rcases identityMapPage_turn finds aligned range mapsBy bound pageIs
        (show (PhysAddr.mk _ frameBound).asU64 = pageAt phys index from rfl) placed opened with
        ⟨passed, middle, ran, placedNext, openedNext⟩ | ⟨stop, last, stopped, ran⟩
      · have rest := ih (index + 1) (by omega) placedNext openedNext
        rw [Nat.add_right_comm, Nat.add_assoc] at rest
        simp only [ran]
        rcases rest with ⟨last, ended, placedLast, clear⟩ | stops
        · refine .inl ⟨last, ended, placedLast, fun turn above below => ?_⟩
          rcases Nat.eq_or_lt_of_le above with rfl | later
          · exact passed
          · exact clear turn later below
        · exact .inr stops
      · refine .inr ⟨index, by omega, stop, last, ?_, stopped⟩
        simp only [ran]

end Run

theorem identityMap_runs {mapper : Mapper} {tables : PageTable 4 → Prop} (finds : mapper.Finds tables)
    {slot : PageTable 4 → Nat → Slot} (mapsBy : mapper.MapsBy tables slot) (system : System)
    (inside : tables system.vmm.pageTable) (phys : PhysAddr) (count : Nat) (flags : PageTableFlags) (aligned : phys.asU64 % 4096 = 0)
    (lower : phys.asU64 + count * 4096 ≤ 2 ^ 47) :
    (∃ last, identityMap mapper phys count flags system = .ok () last ∧
      Placed flags (identityBefore slot system phys.asU64 count) system last ∧
      ∀ turn < count, identityStop slot system phys.asU64 flags turn = none) ∨
    ∃ turn < count, ∃ stop last,
      identityMap mapper phys count flags system = .error stop last ∧
      identityStop slot system phys.asU64 flags turn = some stop := by
  have answered : identityMap mapper phys count flags system =
      identityMapFrom mapper phys.asU64 flags count 0 system := by
    rw [identityMap, vmmPageSize, if_neg (not_not.mpr aligned)]
  have runs := identityMapFrom_runs finds aligned (canonicalRange_lower lower) mapsBy count 0
    (by omega) (by omega) (.nil flags system) (.nil slot inside)
  rw [Nat.zero_add, ← answered] at runs
  rcases runs with ⟨last, ran, placed, clear⟩ | stops
  · exact .inl ⟨last, ran, placed, fun turn bound => clear turn (Nat.zero_le _) bound⟩
  · exact .inr stops

/-- Of a range that has been gone through, the pages passed over lead where they led, and the
others to themselves. -/
theorem Placed.identity {mapper : Mapper} {tables : PageTable 4 → Prop} (finds : mapper.Finds tables)
    {slot : PageTable 4 → Nat → Slot} {flags : PageTableFlags} {before after : System}
    {phys count : Nat} (placed : Placed flags (identityBefore slot before phys count) before after)
    (aligned : phys % 4096 = 0) (range : CanonicalRange phys count) {index : Nat}
    (bound : index < count) {offset : Nat} (inPage : offset < 4096) :
    mapper.translateAddr after.vmm.pageTable (pageAt phys index + offset) =
      if passesOver slot before (pageAt phys index) then
        mapper.translateAddr before.vmm.pageTable (pageAt phys index + offset)
      else if pageAt phys index + flags.bits ≠ 0 then some (pageAt phys index + offset)
      else none := by
  have whole := page_aligned index aligned
  cases passed : passesOver slot before (pageAt phys index) with
  | true =>
      have apart := identity_apart aligned range bound (Nat.le_refl _) passed
      have same := finds.translate_congr (placed.kept _ apart)
      rw [if_pos rfl, finds.translates, finds.translates,
        PageTable.translateAddr_offset _ whole inPage, PageTable.translateAddr_offset _ whole inPage,
        ← finds.translates, ← finds.translates, same]
  | false =>
      have member := mem_identityBefore.mpr ⟨index, bound, passed, rfl⟩
      rw [if_neg Bool.false_ne_true]
      exact placed.translate finds member whole inPage

/-- When `identity_map` returns `Ok(())`, an address of the range leads to itself, unless its page
has been passed over: then it leads where it led before.  Page 0 without any flag stays unused. -/
theorem identityMap_identity {mapper : Mapper} {tables : PageTable 4 → Prop}
    (finds : mapper.Finds tables) {slot : PageTable 4 → Nat → Slot}
    (mapsBy : mapper.MapsBy tables slot) (system system' : System)
    (inside : tables system.vmm.pageTable) (phys : PhysAddr) (count : Nat) (flags : PageTableFlags)
    (aligned : phys.asU64 % 4096 = 0) (lower : phys.asU64 + count * 4096 ≤ 2 ^ 47)
    (done : identityMap mapper phys count flags system = .ok () system') :
    ∀ address, phys.asU64 ≤ address → address < phys.asU64 + count * 4096 →
      mapper.translateAddr system'.vmm.pageTable address =
        if passesOver slot system (address / 4096 * 4096) then
          mapper.translateAddr system.vmm.pageTable address
        else if address < 4096 ∧ flags.bits = 0 then none
        else some address := by
  rcases identityMap_runs finds mapsBy system inside phys count flags aligned lower with
    ⟨last, ran, placed, _⟩ | ⟨_, _, _, _, ran, _⟩
  · rw [ran] at done
    cases done
    intro address above below
    have range := canonicalRange_lower lower
    obtain ⟨index, bound, inPage⟩ := page_of_address above below
    obtain ⟨page, _⟩ := range.page bound
    have start : address / 4096 * 4096 = pageAt phys.asU64 index := by omega
    have rest : address = pageAt phys.asU64 index + address % 4096 := by omega
    have leads := placed.identity finds aligned range bound (Nat.mod_lt address (by decide))
    have unused : address < 4096 ∧ flags.bits = 0 ↔ ¬address / 4096 * 4096 + flags.bits ≠ 0 := by
      omega
    rw [← rest, ← start] at leads
    simp only [leads, unused, ite_not]
  · rw [ran] at done
    cases done

theorem identityMap_identity_boot : ∃ system',
    identityMap treeMapper ⟨0x40000000, by decide⟩ 2 presentFlags bootSystem = .ok () system' ∧
      treeMapper.translateAddr system'.vmm.pageTable 0x40001234 = some 0x40001234 := by
  have clear : ∀ turn < 2,
      identityStop PageTable.slot bootSystem 0x40000000 presentFlags turn = none := by decide +kernel
  have maps : passesOver PageTable.slot bootSystem 0x40001000 = false := by decide
  have tidy : bootSystem.vmm.pageTable.Tidy := bootTables_tidy idleMemory
  rcases identityMap_runs treeMapper_finds treeMapper_mapsBy bootSystem tidy
    ⟨0x40000000, by decide⟩ 2 presentFlags (by decide) (by decide) with
    ⟨last, ran, _, _⟩ | ⟨turn, bound, _, _, _, stopped⟩
  · refine ⟨last, ran, ?_⟩
    rw [identityMap_identity treeMapper_finds treeMapper_mapsBy bootSystem last tidy
      ⟨0x40000000, by decide⟩ 2 presentFlags (by decide) (by decide) ran 0x40001234 (by decide)
      (by decide), maps]
    rfl
  · rw [clear turn bound] at stopped
    cases stopped

def noFlags : PageTableFlags where
  bits := 0
  noAddress := rfl
  inBounds := by decide

/-- A kernel whose tables map the page at 4 KiB, and nothing else. -/
def lowSystem : System :=
  stateOf (mapPage treeMapper ⟨0x1000, by decide⟩ ⟨0x700000, by decide⟩ presentFlags
    { bootSystem with vmm := .discovered (PageTable.empty 4) })

theorem lowSystem_tidy : lowSystem.vmm.pageTable.Tidy :=
  mapPage_keeps treeMapper_finds.stable ⟨0x1000, by decide⟩ ⟨0x700000, by decide⟩ trivial
    { bootSystem with vmm := .discovered (PageTable.empty 4) } (PageTable.tidy_empty 4)

theorem identityMap_page {system : System} (tidy : system.vmm.pageTable.Tidy) (phys : PhysAddr)
    {flags : PageTableFlags} (aligned : phys.asU64 % 4096 = 0) (lower : phys.asU64 + 1 * 4096 ≤ 2 ^ 47)
    (clear : identityStop PageTable.slot system phys.asU64 flags 0 = none) :
    ∃ system', identityMap treeMapper phys 1 flags system = .ok () system' ∧
      treeMapper.translateAddr system'.vmm.pageTable (pageAt phys.asU64 0 + 0) =
        if passesOver PageTable.slot system (pageAt phys.asU64 0) then
          treeMapper.translateAddr system.vmm.pageTable (pageAt phys.asU64 0 + 0)
        else if pageAt phys.asU64 0 + flags.bits ≠ 0 then some (pageAt phys.asU64 0 + 0)
        else none := by
  rcases identityMap_runs treeMapper_finds treeMapper_mapsBy system tidy phys 1 flags aligned lower with
    ⟨last, ran, placed, _⟩ | ⟨turn, bound, _, _, _, stopped⟩
  · exact ⟨last, ran, placed.identity treeMapper_finds aligned (canonicalRange_lower lower)
      Nat.zero_lt_one (Nat.zero_lt_succ 4095)⟩
  · obtain rfl : turn = 0 := by omega
    rw [clear] at stopped
    cases stopped

/-- A page that is mapped elsewhere is passed over: the call succeeds, and the page is not mapped
to itself.  Nor is page 0 without any flag. -/
theorem passed_page_stays :
    (∃ system',
      identityMap treeMapper ⟨0x40000000, by decide⟩ 1 presentFlags mappedSystem = .ok () system' ∧
        treeMapper.translateAddr system'.vmm.pageTable 0x40000000 = some 0x600000) ∧
    ∃ system', identityMap treeMapper ⟨0, by decide⟩ 1 noFlags lowSystem = .ok () system' ∧
      treeMapper.translateAddr system'.vmm.pageTable 0 = none := by
  constructor
  · have clear : identityStop PageTable.slot mappedSystem 0x40000000 presentFlags 0 = none := by
      decide +kernel
    have page : pageAt 0x40000000 0 = 0x40000000 := by decide +kernel
    have passed : passesOver PageTable.slot mappedSystem 0x40000000 = true := by decide
    have held : treeMapper.translateAddr mappedSystem.vmm.pageTable 0x40000000 = some 0x600000 := by
      decide
    obtain ⟨last, ran, leads⟩ := identityMap_page mappedSystem_tidy ⟨0x40000000, by decide⟩ (by decide)
      (by decide) clear
    rw [page, passed, if_pos rfl] at leads
    exact ⟨last, ran, leads.trans held⟩
  · have clear : identityStop PageTable.slot lowSystem 0 noFlags 0 = none := by decide +kernel
    have maps : passesOver PageTable.slot lowSystem 0 = false := by decide
    have page : pageAt 0 0 = 0 := by decide +kernel
    obtain ⟨last, ran, leads⟩ := identityMap_page lowSystem_tidy ⟨0, by decide⟩ (by decide)
      (by decide) clear
    rw [page, maps] at leads
    exact ⟨last, ran, leads⟩

end ArcadiaOs.Vmm
