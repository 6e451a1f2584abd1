import ArcadiaOs.Process.AddressSpace

/-!
A mapper that follows the documentation of `map_to`: the path is walked from the PML4,
a missing table is allocated, linked and cleared, and the last entry is set when it is
unused.
-/

namespace ArcadiaOs.Process

open Lib Memory PhysicalFrameAllocator

/-- The table behind an entry, created when the entry is unused.  The flags make an entry in use
present, as those of a launch hold PRESENT. -/
def createNextTable (memory : Memory) (pmm : PhysicalFrameAllocator) (slot flags : Nat) :
    Except MapToError Nat × Memory × PhysicalFrameAllocator :=
  let entry := entryAt memory slot
  if entry.bits = 0 then
    match pmm.allocateFrame with
    | (none, pmm') => (.error .frameAllocationFailed, memory, pmm')
    | (some frame, pmm') =>
        (.ok frame.asU64,
          (memory.writeU64 slot (frame.asU64 + flags)).fill frame.asU64 4096 0, pmm')
  else
    let memory' := memory.writeU64 slot (entry.bits ||| flags)
    if entry.hugePage then (.error .parentEntryHugePage, memory', pmm)
    else (.ok entry.addr, memory', pmm)

def offsetPageTable : MapTo := fun memory pmm pml4 page frame flags =>
  let parentFlags := flags % 8
  match createNextTable memory pmm (slot4 pml4 page) parentFlags with
  | (.error reason, memory, pmm) => (.error reason, memory, pmm)
  | (.ok table3, memory, pmm) =>
      match createNextTable memory pmm (slot3 table3 page) parentFlags with
      | (.error reason, memory, pmm) => (.error reason, memory, pmm)
      | (.ok table2, memory, pmm) =>
          match createNextTable memory pmm (slot2 table2 page) parentFlags with
          | (.error reason, memory, pmm) => (.error reason, memory, pmm)
          | (.ok table1, memory, pmm) =>
              if memory.readU64 (slot1 table1 page) ≠ 0 then
                (.error .pageAlreadyMapped, memory, pmm)
              else (.ok (), memory.writeU64 (slot1 table1 page) (frame + flags), pmm)

theorem createNextTable_allocates (memory : Memory) (pmm : PhysicalFrameAllocator)
    (slot flags : Nat) :
    ∃ count ≤ 1, (createNextTable memory pmm slot flags).2.2 = allocations count pmm := by
  simp only [createNextTable]
  split
  · refine ⟨1, Nat.le_refl _, ?_⟩
    cases given : pmm.allocateFrame with
    | mk frame pmm' =>
        cases frame with
        | none => simp only [allocations, given]
        | some frame => simp only [allocations, given]
  · refine ⟨0, Nat.zero_le _, ?_⟩
    split <;> rfl

theorem allocations_add (first second : Nat) (pmm : PhysicalFrameAllocator) :
    allocations (first + second) pmm = allocations second (allocations first pmm) := by
  induction first generalizing pmm with
  | zero => rw [Nat.zero_add, allocations]
  | succ first ih => rw [Nat.succ_add, allocations, ih, allocations]

theorem grants_add (first second : Nat) (pmm : PhysicalFrameAllocator) :
    grants (first + second) pmm = grants first pmm ++ grants second (allocations first pmm) := by
  induction first generalizing pmm with
  | zero => rw [Nat.zero_add, allocations, grants, List.nil_append]
  | succ first ih => rw [Nat.succ_add, grants, ih, grants, allocations, List.append_assoc]

def writes (memory : Memory) : List (Nat × Nat) → Memory
  | [] => memory
  | (slot, value) :: rest => writes (memory.writeU64 slot value) rest

theorem writes_append (memory : Memory) (first : List (Nat × Nat)) (slot value : Nat) :
    writes memory (first ++ [(slot, value)]) = (writes memory first).writeU64 slot value := by
  induction first generalizing memory with
  | nil => rfl
  | cons write rest ih => exact ih _

theorem writes_other {memory : Memory} {place : Nat} {entries : List (Nat × Nat)}
    (outside : ∀ write ∈ entries, Outside write.1 place) : writes memory entries place = memory place := by
  induction entries generalizing memory with
  | nil => rfl
  | cons write rest ih =>
      have first := outside write List.mem_cons_self
      rw [writes, ih fun other member => outside other (List.mem_cons_of_mem _ member)]
      exact Memory.writeU64_other first

theorem readU64_writes_other (memory : Memory) {slot : Nat} {entries : List (Nat × Nat)}
    (apart : ∀ write ∈ entries, write.1 + 8 ≤ slot ∨ slot + 8 ≤ write.1) :
    (writes memory entries).readU64 slot = memory.readU64 slot :=
  Memory.readU64_congr fun place above inside => writes_other fun write member => by
    have := apart write member
    rw [Outside]
    omega

def Apart (left right : Nat × Nat) : Prop := left.1 + 8 ≤ right.1 ∨ right.1 + 8 ≤ left.1

theorem readU64_writes_same {memory : Memory} {entries : List (Nat × Nat)}
    (apart : entries.Pairwise Apart) {slot value : Nat} (member : (slot, value) ∈ entries) :
    (writes memory entries).readU64 slot = value % 2 ^ 64 := by
  induction entries generalizing memory with
  | nil => cases member
  | cons write rest ih =>
      rw [List.pairwise_cons] at apart
      rcases List.mem_cons.mp member with same | later
      · subst same
        rw [writes, readU64_writes_other _ fun write found => (apart.1 write found).symm,
          Memory.readU64_writeU64_same]
      · exact ih apart.2 later

theorem fill_writes {memory : Memory} {taken : List Nat} {entries : List (Nat × Nat)} {table : Nat}
    (aligned : table % 4096 = 0)
    (apart : ∀ write ∈ entries, write.1 + 8 ≤ table ∨ table + 4096 ≤ write.1) :
    (writes (cleared memory taken) entries).fill table 4096 0 =
      writes (cleared memory (taken ++ [table])) entries := by
  have base : ∀ (source : Memory), (writes source entries).fill table 4096 0 =
      writes (source.fill table 4096 0) entries := by
    clear taken
    induction entries with
    | nil => exact fun _ => rfl
    | cons write rest ih =>
        intro source
        have here := apart write List.mem_cons_self
        rw [writes, ih fun other member => apart other (List.mem_cons_of_mem _ member), writes]
        congr 1
        funext place
        by_cases inside : table ≤ place ∧ place < table + 4096
        · rw [Memory.fill_inside inside.1 inside.2, Memory.writeU64_other (by omega),
            Memory.fill_inside inside.1 inside.2]
        · rw [Memory.fill_other (by omega)]
          by_cases written : place < write.1 ∨ write.1 + 8 ≤ place
          · rw [Memory.writeU64_other written, Memory.writeU64_other written,
              Memory.fill_other (by omega)]
          · simp only [Memory.writeU64, Memory.write, length_leBytes]
            rw [if_pos (by omega), if_pos (by omega)]
  rw [base]
  congr 1
  funext place
  by_cases inside : table ≤ place ∧ place < table + 4096
  · have frame : place / 4096 * 4096 = table := by omega
    rw [Memory.fill_inside inside.1 inside.2, cleared, if_pos (by simp [frame])]
  · have frame : place / 4096 * 4096 ≠ table := by omega
    rw [Memory.fill_other (by omega), cleared, cleared]
    simp only [List.mem_append, List.mem_singleton, frame, or_false]

/-- The value a step writes into an entry, read before as `bits`. -/
def Linked (bits : Nat) (taken : List Nat) (flags next value : Nat) : Prop :=
  bits = 0 ∧ next ∈ taken ∧ value = next + flags ∨
  (PageTableEntry.mk bits).present = true ∧ (PageTableEntry.mk bits).hugePage = false ∧
    (PageTableEntry.mk bits).addr = next ∧ value = bits ||| flags

/-- The walk on its way: the writes so far over the cleared memory, in entries of the tables it
has come through; it stands in a table it knows or in one it has just created. -/
structure Stage (level : Nat → Nat) (memory : Memory) (pmm : PhysicalFrameAllocator) (count : Nat)
    (hosts : List Nat) (entries : List (Nat × Nat)) (table height : Nat) : Prop where
  aligned : ∀ host ∈ table :: hosts, host % 4096 = 0
  reserved : ∀ host ∈ table :: hosts,
    (allocations count pmm).isFrameReserved (host / 4096) = true
  distinct : table ∉ hosts
  slots : ∀ write ∈ entries, ∃ host ∈ hosts, ∃ index < 512, write.1 = host + 8 * index
  apart : entries.Pairwise Apart
  here : count = 0 ∧ level table = height ∧ (∀ host ∈ hosts, height < level host) ∨
    table ∈ grants count pmm

section Walk

variable {covers : Nat → Prop} {level : Nat → Nat} {pml4 : Nat} {memory : Memory}
  {pmm : PhysicalFrameAllocator} (tables : Tables covers level pml4 memory pmm)

theorem Stage.off {count height table : Nat} {hosts : List Nat} {entries : List (Nat × Nat)}
    (stage : Stage level memory pmm count hosts entries table height) {index : Nat}
    (bound : index < 512) :
    ∀ write ∈ entries, write.1 + 8 ≤ table + 8 * index ∨ table + 8 * index + 8 ≤ write.1 := by
  intro write member
  obtain ⟨host, hostMember, place, placeBound, same⟩ := stage.slots write member
  have different : host ≠ table := fun same => stage.distinct (same ▸ hostMember)
  rcases slot_apart (stage.aligned host (List.mem_cons_of_mem _ hostMember))
    (stage.aligned table List.mem_cons_self) placeBound bound with ⟨here, _⟩ | before | behind
  · exact absurd here different
  · omega
  · omega

theorem Stage.slots_next {count height table : Nat} {hosts : List Nat} {entries : List (Nat × Nat)}
    (stage : Stage level memory pmm count hosts entries table height) {index : Nat}
    (bound : index < 512) (value : Nat) :
    ∀ write ∈ entries ++ [(table + 8 * index, value)],
      ∃ host ∈ table :: hosts, ∃ place < 512, write.1 = host + 8 * place := by
  intro write member
  rcases List.mem_append.mp member with old | new
  · obtain ⟨host, hostMember, rest⟩ := stage.slots write old
    exact ⟨host, List.mem_cons_of_mem _ hostMember, rest⟩
  · rw [List.mem_singleton.mp new]
    exact ⟨table, List.mem_cons_self, index, bound, rfl⟩

theorem Stage.apart_next {count height table : Nat} {hosts : List Nat} {entries : List (Nat × Nat)}
    (stage : Stage level memory pmm count hosts entries table height) {index : Nat}
    (bound : index < 512) (value : Nat) :
    (entries ++ [(table + 8 * index, value)]).Pairwise Apart := by
  rw [List.pairwise_append]
  refine ⟨stage.apart, List.pairwise_singleton _ _, fun write member last found => ?_⟩
  rw [List.mem_singleton.mp found]
  exact stage.off bound write member

theorem Stage.next {count height table : Nat} {hosts : List Nat} {entries : List (Nat × Nat)}
    (stage : Stage level memory pmm count hosts entries table (height + 1)) {index : Nat}
    (bound : index < 512) (value : Nat) {count' behind : Nat} (le : count ≤ count')
    (aligned : behind % 4096 = 0)
    (reserved : (allocations count' pmm).isFrameReserved (behind / 4096) = true)
    (fresh : behind ∉ table :: hosts)
    (here : count' = 0 ∧ level behind = height ∧ (∀ host ∈ table :: hosts, height < level host) ∨
      behind ∈ grants count' pmm) :
    Stage level memory pmm count' (table :: hosts) (entries ++ [(table + 8 * index, value)]) behind
      height := by
  refine ⟨fun host member => ?_, fun host member => ?_, fresh, stage.slots_next bound value,
    stage.apart_next bound value, here⟩
  · rcases List.mem_cons.mp member with rfl | older
    · exact aligned
    · exact stage.aligned host older
  · rcases List.mem_cons.mp member with rfl | older
    · exact reserved
    · obtain ⟨more, rfl⟩ := Nat.exists_eq_add_of_le le
      rw [allocations_add]
      exact (allocations_grown more _).reserved _ (stage.reserved host older)

include tables

/-- The entry is unused, and gets a table that the allocator has handed out. -/
theorem Stage.opened {count height table : Nat} {hosts : List Nat} {entries : List (Nat × Nat)}
    (stage : Stage level memory pmm count hosts entries table (height + 1)) {index flags : Nat}
    (bound : index < 512) {frame : PhysAddr} {pmm' : PhysicalFrameAllocator}
    (given : (allocations count pmm).allocateFrame = (some frame, pmm')) :
    pmm' = allocations (count + 1) pmm ∧ frame.asU64 ∈ grants (count + 1) pmm ∧
      ((writes (cleared memory (grants count pmm)) entries).writeU64 (table + 8 * index)
        (frame.asU64 + flags)).fill frame.asU64 4096 0 =
          writes (cleared memory (grants (count + 1) pmm))
            (entries ++ [(table + 8 * index, frame.asU64 + flags)]) ∧
      frame.asU64 ∉ table :: hosts ∧
      Stage level memory pmm (count + 1) (table :: hosts)
        (entries ++ [(table + 8 * index, frame.asU64 + flags)]) frame.asU64 height := by
  have grows : grants (count + 1) pmm = grants count pmm ++ [frame.asU64] := by
    rw [grants_add, grants, grants, given]
    simp
  have taken : frame.asU64 ∈ grants (count + 1) pmm := by simp [grows]
  have now : frame.asU64 ∈ grants 1 (allocations count pmm) := by simp [grants, given]
  obtain ⟨aligned, _, _, _, held, _⟩ := mem_grants taken
  have free := (mem_grants now).2.2.2.2.2 (allocations_sound count tables.sound)
  have fresh : frame.asU64 ∉ table :: hosts := by
    intro member
    have reserved := stage.reserved _ member
    rw [show frame.asU64 / 4096 = frame.asU64 / frameSize from rfl, free] at reserved
    cases reserved
  refine ⟨?_, taken, ?_, fresh, stage.next bound _ (Nat.le_succ _) aligned held fresh (.inr taken)⟩
  · rw [allocations_add, allocations, allocations, given]
  · rw [grows, ← writes_append, fill_writes aligned]
    intro write member
    obtain ⟨host, hostMember, place, placeBound, placed⟩ := stage.slots_next bound _ write member
    have hostAligned := stage.aligned host hostMember
    have apart : host ≠ frame.asU64 := fun same => fresh (same ▸ hostMember)
    have frameAligned : frame.asU64 % 4096 = 0 := aligned
    omega

/-- The entry is in use and leads on: the walk has not left the tables that were there. -/
theorem Stage.descended {count height table : Nat} {hosts : List Nat} {entries : List (Nat × Nat)}
    (stage : Stage level memory pmm count hosts entries table (height + 1)) (low : 1 ≤ height)
    {index : Nat} (bound : index < 512) (scope : table = pml4 → covers index)
    {entry : PageTableEntry}
    (read : (cleared memory (grants count pmm)).readU64 (table + 8 * index) = entry.bits)
    (used : entry.bits ≠ 0) (small : entry.hugePage = false) (value : Nat) :
    count = 0 ∧ entry.present = true ∧
      Stage level memory pmm count (table :: hosts) (entries ++ [(table + 8 * index, value)])
        entry.addr height := by
  obtain ⟨rfl, high, above⟩ : count = 0 ∧ level table = height + 1 ∧
      ∀ host ∈ hosts, height + 1 < level host := by
    rcases stage.here with known | new
    · exact known
    · exact absurd (read.symm.trans (cleared_taken memory (mem_grants new).1 bound new)) used
  have aligned := stage.aligned table List.mem_cons_self
  have same : entryAt memory (table + 8 * index) = entry := by
    rw [entryAt, ← cleared_other memory aligned bound (List.not_mem_nil (a := table))]
    exact congrArg PageTableEntry.mk read
  obtain ⟨present, typed⟩ : entry.present = true ∧ level entry.addr = height := by
    have typed := tables.entries table index (by omega) bound scope
    rw [same] at typed
    rcases typed with unused | ⟨present, huge | behind⟩
    · exact absurd unused used
    · rw [small] at huge
      cases huge
    · exact ⟨present, by omega⟩
  have higher : ∀ host ∈ table :: hosts, height < level host := by
    intro host member
    rcases List.mem_cons.mp member with rfl | deeper
    · omega
    · have := above host deeper
      omega
  have fresh : entry.addr ∉ table :: hosts := by
    intro member
    have := higher _ member
    omega
  exact ⟨rfl, present, stage.next bound value (Nat.le_refl _) (tables.aligned _ (by omega))
    (tables.reserved _ (by omega)) fresh (.inl ⟨rfl, typed, higher⟩)⟩

theorem Stage.step {count height table : Nat} {hosts : List Nat} {entries : List (Nat × Nat)}
    (stage : Stage level memory pmm count hosts entries table (height + 1)) (low : 1 ≤ height)
    {index flags next : Nat} (bound : index < 512) (scope : table = pml4 → covers index)
    {memory' : Memory} {pmm' : PhysicalFrameAllocator}
    (done : createNextTable (writes (cleared memory (grants count pmm)) entries)
      (allocations count pmm) (table + 8 * index) flags = (.ok next, memory', pmm')) :
    ∃ count' value, count ≤ count' ∧ count' ≤ count + 1 ∧ pmm' = allocations count' pmm ∧
      memory' = writes (cleared memory (grants count' pmm))
        (entries ++ [(table + 8 * index, value)]) ∧
      Linked ((cleared memory (grants count pmm)).readU64 (table + 8 * index)) (grants count' pmm)
        flags next value ∧
      (next ∈ grants count' pmm → next ∉ table :: hosts) ∧
      Stage level memory pmm count' (table :: hosts) (entries ++ [(table + 8 * index, value)]) next
        height := by
  have same := readU64_writes_other (cleared memory (grants count pmm)) (stage.off bound)
  simp only [createNextTable, entryAt, same] at done
  split at done
  · rename_i unused
    split at done
    · cases done
    rename_i frame pmmNext given
    simp only [Prod.mk.injEq, Except.ok.injEq] at done
    obtain ⟨rfl, rfl, rfl⟩ := done
    obtain ⟨took, taken, wrote, fresh, stage'⟩ := stage.opened tables bound given
    exact ⟨count + 1, _, by omega, Nat.le_refl _, took, wrote, .inl ⟨unused, taken, rfl⟩,
      fun _ => fresh, stage'⟩
  · rename_i used
    split at done
    · cases done
    rename_i small
    simp only [Prod.mk.injEq, Except.ok.injEq] at done
    obtain ⟨rfl, rfl, rfl⟩ := done
    have small : (entryAt (cleared memory (grants count pmm)) (table + 8 * index)).hugePage = false :=
      Bool.eq_false_of_not_eq_true small
    obtain ⟨rfl, present, stage'⟩ := stage.descended tables low bound scope rfl used small _
    exact ⟨0, _, Nat.le_refl _, by omega, rfl, (writes_append _ _ _ _).symm,
      .inr ⟨present, small, rfl, rfl⟩, fun taken => absurd taken List.not_mem_nil, stage'⟩

omit tables in
theorem cleared_nil (memory : Memory) : cleared memory [] = memory := by
  funext place
  rw [cleared, if_neg List.not_mem_nil]

theorem cleared_stable (memory : Memory) {count later host index : Nat} (le : count ≤ later)
    (aligned : host % 4096 = 0)
    (reserved : (allocations count pmm).isFrameReserved (host / 4096) = true)
    (bound : index < 512) :
    (cleared memory (grants later pmm)).readU64 (host + 8 * index) =
      (cleared memory (grants count pmm)).readU64 (host + 8 * index) := by
  obtain ⟨more, rfl⟩ := Nat.exists_eq_add_of_le le
  have same : host ∈ grants (count + more) pmm ↔ host ∈ grants count pmm := by
    rw [grants_add, List.mem_append]
    refine ⟨fun member => member.resolve_right fun new => ?_, .inl⟩
    have free := (mem_grants new).2.2.2.2.2 (allocations_sound count tables.sound)
    rw [show host / frameSize = host / 4096 from rfl, reserved] at free
    cases free
  refine Memory.readU64_congr fun place above inside => ?_
  simp only [cleared, slot_frame aligned bound above inside, same]

end Walk

theorem Linked.link {before : Memory} {taken more : List Nat} {after : Memory}
    {bits flags slot next value : Nat} (linked : Linked bits taken flags next value)
    (read : before.readU64 slot = bits) (subset : ∀ table ∈ taken, table ∈ more)
    (small : ∀ table ∈ taken, table < 2 ^ 52) (flagsSmall : flags < 8)
    (wrote : after.readU64 slot = value % 2 ^ 64) : Link before more after flags slot next := by
  rcases linked with ⟨zero, member, rfl⟩ | ⟨present, notHuge, addr, rfl⟩
  · refine .inl ⟨read.trans zero, subset next member, ?_⟩
    have bound := small next member
    rw [wrote, Nat.mod_eq_of_lt (by omega)]
  · have bound : bits < 2 ^ 64 := read ▸ before.readU64_lt slot
    refine .inr ⟨?_, ?_, ?_, ?_⟩
    · rw [entryAt, read]
      exact present
    · rw [entryAt, read]
      exact notHuge
    · rw [entryAt, read]
      exact addr
    · rw [wrote, read, Nat.mod_eq_of_lt (Nat.or_lt_two_pow bound (by omega))]

theorem offsetPageTable_allocates (memory : Memory) (pmm : PhysicalFrameAllocator)
    (pml4 page frame flags : Nat) :
    ∃ count ≤ 3, (offsetPageTable memory pmm pml4 page frame flags).2.2 = allocations count pmm := by
  simp only [offsetPageTable]
  obtain ⟨count3, bound3, took3⟩ :=
    createNextTable_allocates memory pmm (slot4 pml4 page) (flags % 8)
  cases step3 : createNextTable memory pmm (slot4 pml4 page) (flags % 8) with
  | mk answer rest =>
      obtain ⟨memory3, pmm3⟩ := rest
      rw [step3] at took3
      obtain rfl : pmm3 = allocations count3 pmm := took3
      cases answer with
      | error reason => exact ⟨count3, by omega, rfl⟩
      | ok table3 =>
          simp only
          obtain ⟨count2, bound2, took2⟩ := createNextTable_allocates memory3
            (allocations count3 pmm) (slot3 table3 page) (flags % 8)
          cases step2 : createNextTable memory3 (allocations count3 pmm) (slot3 table3 page)
            (flags % 8) with
          | mk answer rest =>
              obtain ⟨memory2, pmm2⟩ := rest
              rw [step2] at took2
              obtain rfl : pmm2 = allocations count2 (allocations count3 pmm) := took2
              rw [← allocations_add]
              cases answer with
              | error reason => exact ⟨count3 + count2, by omega, rfl⟩
              | ok table2 =>
                  simp only
                  obtain ⟨count1, bound1, took1⟩ := createNextTable_allocates memory2
                    (allocations (count3 + count2) pmm) (slot2 table2 page) (flags % 8)
                  cases step1 : createNextTable memory2 (allocations (count3 + count2) pmm)
                    (slot2 table2 page) (flags % 8) with
                  | mk answer rest =>
                      obtain ⟨memory1, pmm1⟩ := rest
                      rw [step1] at took1
                      obtain rfl : pmm1 = allocations count1 (allocations (count3 + count2) pmm) :=
                        took1
                      rw [← allocations_add]
                      refine ⟨count3 + count2 + count1, by omega, ?_⟩
                      cases answer with
                      | error reason => rfl
                      | ok table1 =>
                          simp only
                          split <;> rfl

/-- A walk that has come through its three steps, with the tables it has come to and what it has
written into their entries. -/
structure Walked (level : Nat → Nat) (memory : Memory) (pmm : PhysicalFrameAllocator)
    (pml4 page flags count3 count2 count1 table3 table2 table1 value3 value2 value1 : Nat) : Prop where
  root : Stage level memory pmm 0 [] [] pml4 4
  stage3 : Stage level memory pmm count3 [pml4] [(slot4 pml4 page, value3)] table3 3
  stage2 : Stage level memory pmm count2 [table3, pml4]
    [(slot4 pml4 page, value3), (slot3 table3 page, value2)] table2 2
  stage1 : Stage level memory pmm count1 [table2, table3, pml4]
    [(slot4 pml4 page, value3), (slot3 table3 page, value2), (slot2 table2 page, value1)] table1 1
  linked3 : Linked ((cleared memory (grants 0 pmm)).readU64 (slot4 pml4 page)) (grants count3 pmm)
    flags table3 value3
  linked2 : Linked ((cleared memory (grants count3 pmm)).readU64 (slot3 table3 page))
    (grants count2 pmm) flags table2 value2
  linked1 : Linked ((cleared memory (grants count2 pmm)).readU64 (slot2 table2 page))
    (grants count1 pmm) flags table1 value1
  grow2 : count3 ≤ count2
  grow1 : count2 ≤ count1
  bound : count1 ≤ 3

section Walked

variable {covers : Nat → Prop} {level : Nat → Nat} {pml4 : Nat} {memory : Memory}
  {pmm : PhysicalFrameAllocator} (tables : Tables covers level pml4 memory pmm)
  {page frame flags : Nat}
include tables

theorem Tables.rootStage : Stage level memory pmm 0 [] [] pml4 4 := by
  have root := (tables.root pml4).mpr rfl
  refine ⟨fun host member => ?_, fun host member => ?_, List.not_mem_nil, by simp,
    List.Pairwise.nil, .inl ⟨rfl, root, by simp⟩⟩
  · rw [List.mem_singleton.mp member]
    exact tables.aligned pml4 (by omega)
  · rw [List.mem_singleton.mp member]
    exact tables.reserved pml4 (by omega)

theorem offsetPageTable_walked (covered : covers (p4Index page)) (small : flags < 8)
    {memory' : Memory} {pmm' : PhysicalFrameAllocator}
    (done : offsetPageTable memory pmm pml4 page frame flags = (.ok (), memory', pmm')) :
    ∃ count3 count2 count1 table3 table2 table1 value3 value2 value1,
      Walked level memory pmm pml4 page flags count3 count2 count1 table3 table2 table1
        value3 value2 value1 ∧
      (cleared memory (grants count1 pmm)).readU64 (slot1 table1 page) = 0 ∧
      pmm' = allocations count1 pmm ∧
      memory' = writes (cleared memory (grants count1 pmm)) [(slot4 pml4 page, value3),
        (slot3 table3 page, value2), (slot2 table2 page, value1),
        (slot1 table1 page, frame + flags)] := by
  have root := tables.rootStage
  have inner : ∀ {table : Nat} {hosts : List Nat} {index : Nat}, pml4 ∈ hosts → table ∉ hosts →
      table = pml4 → covers index := fun member distinct same => absurd (same ▸ member) distinct
  simp only [offsetPageTable, Nat.mod_eq_of_lt small] at done
  split at done
  · cases done
  rename_i table3 memory3 pmm3 step3
  rw [← cleared_nil memory] at step3
  obtain ⟨count3, value3, _, bound3, rfl, rfl, linked3, _, stage3⟩ :=
    root.step tables (by decide) (p4Index_lt page) (fun _ => covered) step3
  split at done
  · cases done
  rename_i table2 memory2 pmm2 step2
  obtain ⟨count2, value2, grow2, bound2, rfl, rfl, linked2, _, stage2⟩ :=
    stage3.step tables (by decide) (p3Index_lt page) (inner (by simp) stage3.distinct) step2
  split at done
  · cases done
  rename_i table1 memory1 pmm1 step1
  obtain ⟨count1, value1, grow1, bound1, rfl, rfl, linked1, _, stage1⟩ :=
    stage2.step tables (by decide) (p2Index_lt page) (inner (by simp) stage2.distinct) step1
  split at done
  · cases done
  rename_i unused
  simp only [Prod.mk.injEq, true_and] at done
  obtain ⟨rfl, rfl⟩ := done
  rw [ne_eq, not_not, slot1, readU64_writes_other _ (stage1.off (p1Index_lt page))] at unused
  refine ⟨count3, count2, count1, table3, table2, table1, value3, value2, value1,
    ⟨root, stage3, stage2, stage1, linked3, linked2, linked1, grow2, grow1, by omega⟩, unused, rfl, ?_⟩
  rw [← writes_append]
  rfl

variable {count3 count2 count1 table3 table2 table1 value3 value2 value1 : Nat}
  (walked : Walked level memory pmm pml4 page flags count3 count2 count1 table3 table2 table1
    value3 value2 value1)
include walked

/-- What the steps have read before stands there until the last entry is written. -/
theorem Walked.maps (frameSmall : frame < 2 ^ 52) (small : flags < 8)
    (unused : (cleared memory (grants count1 pmm)).readU64 (slot1 table1 page) = 0) :
    Maps memory (grants count1 pmm) (writes (cleared memory (grants count1 pmm))
      [(slot4 pml4 page, value3), (slot3 table3 page, value2), (slot2 table2 page, value1),
        (slot1 table1 page, frame + flags)]) pml4 page frame flags table3 table2 table1 := by
  obtain ⟨root, stage3, stage2, stage1, linked3, linked2, linked1, grow2, grow1, _⟩ := walked
  have distinct2 := stage2.distinct
  have distinct1 := stage1.distinct
  simp only [List.mem_cons, List.not_mem_nil, or_false, not_or] at distinct2 distinct1
  have apart := stage1.apart_next (p1Index_lt page) (frame + flags)
  have read4 := cleared_stable tables memory (Nat.zero_le count1)
    (root.aligned pml4 List.mem_cons_self) (root.reserved pml4 List.mem_cons_self) (p4Index_lt page)
  have read3 := cleared_stable tables memory (Nat.le_trans grow2 grow1)
    (stage3.aligned table3 List.mem_cons_self) (stage3.reserved table3 List.mem_cons_self)
    (p3Index_lt page)
  have read2 := cleared_stable tables memory grow1 (stage2.aligned table2 List.mem_cons_self)
    (stage2.reserved table2 List.mem_cons_self) (p2Index_lt page)
  have subset : ∀ {count : Nat}, count ≤ count1 → ∀ table ∈ grants count pmm,
      table ∈ grants count1 pmm := fun le table member => grants_mono le member
  have smallGrants : ∀ {count : Nat}, ∀ table ∈ grants count pmm, table < 2 ^ 52 :=
    fun table member => (mem_grants member).2.1
  constructor
  · exact linked3.link read4 (subset (Nat.le_trans grow2 grow1)) smallGrants small
      (readU64_writes_same apart (by simp))
  · exact linked2.link read3 (subset grow1) smallGrants small
      (readU64_writes_same apart (by simp))
  · exact linked1.link read2 (subset (Nat.le_refl _)) smallGrants small
      (readU64_writes_same apart (by simp))
  · exact unused
  · have whole : frame + flags < 2 ^ 64 := by omega
    exact (readU64_writes_same apart (by simp [slot1])).trans (Nat.mod_eq_of_lt whole)
  · exact fun _ => ⟨fun same => distinct2.1 same.symm, fun same => distinct1.2.1 same.symm⟩
  · exact fun _ same => distinct1.1 same.symm
  · intro place outside4 outside3 outside2 outside1
    refine writes_other fun write member => ?_
    simp only [List.mem_cons, List.not_mem_nil, or_false] at member
    rcases member with rfl | rfl | rfl | rfl
    · exact outside4
    · exact outside3
    · exact outside2
    · exact outside1

end Walked

theorem offsetPageTable_documented : MapTo.Documented offsetPageTable := by
  refine ⟨offsetPageTable_allocates, ?_⟩
  intro covers level memory pmm pml4 page frame flags memory' pmm' tables covered _ _ frameSmall
    small _ done
  obtain ⟨count3, count2, count1, table3, table2, table1, value3, value2, value1, walked, unused,
    rfl, rfl⟩ := offsetPageTable_walked tables covered small done
  exact ⟨count1, walked.bound, rfl, table3, table2, table1,
    walked.maps tables frameSmall small unused⟩

def idleProcess : ProcessControlBlock where
  pid := 1
  state := .unused
  kernelRsp := 0
  userRsp := 0
  pml4Phys := 0
  elfEntry := 0
  exitCode := 0
  kernelStackPhys := 0
  userStackPhys := 0
  sleepUntil := 0

/-- A PML4 at 0x1000 whose last entry leads to a table at 0x2000 with one huge page. -/
def idleMemory : Memory := writes (fun _ => 0) [(0x1FF8, 0x2003), (0x2FF0, 0x83)]

/-- A machine with some frames behind the first four, which hold the kernel and its tables. -/
def idleKernel (frames : Nat) : Kernel where
  memory := idleMemory
  pmm := (new (fun _ => 0#8) ((4 + frames) * 4096)).reserveRange ⟨0, PhysAddr.zero_inBounds⟩
    ⟨0x4000, by decide⟩
  processTable := [idleProcess]
  currentPid := 0
  kernelPml4Phys := ⟨0x1000, PhysAddr.page_inBounds⟩

theorem idleKernel_sound (frames : Nat) : (idleKernel frames).pmm.NextFreeSound :=
  recalculateNextFree_sound _

end ArcadiaOs.Process
