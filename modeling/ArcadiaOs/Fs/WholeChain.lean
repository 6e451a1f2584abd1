import ArcadiaOs.Fs.CorruptTable
import Mathlib.Data.List.TakeWhile

/-!
How much of a chain `read_chain` and `free_chain` cover.  They follow the links up to the
end mark, but no link that is the bad mark and no more than `maxChain` of them.
-/

namespace ArcadiaOs.Fs

open Lib

namespace Fat32Fs

/-- The entry of a cluster, without its reserved bits. -/
def entryOf (fs : Fat32Fs) (device : Device) (cluster : Nat) : Nat := fs.fatWord device cluster % 2 ^ 28

/-- Following the entries from `start` visits these clusters of the table and ends at an end mark. -/
structure EntryChain (fs : Fat32Fs) (device : Device) (start : Nat) (clusters : List Nat) : Prop where
  head : clusters.head? = some start
  inside : ∀ cluster ∈ clusters, 2 ≤ cluster ∧ cluster / 128 < fs.bpb.fatSize32.toNat
  distinct : clusters.Nodup
  linked : Linked (fs.entryOf device) id EndOfChain clusters
  ongoing : ∀ cluster ∈ clusters.tail, ¬EndOfChain cluster

/-- The clusters in front of the first link that is the bad mark. -/
def unmarked : List Nat → List Nat
  | [] => []
  | cluster :: rest => cluster :: rest.takeWhile (· ≠ fat32Bad)

def followed (clusters : List Nat) : List Nat := visible (unmarked clusters)

variable {fs : Fat32Fs} {device device' : Device} {start : Nat} {clusters : List Nat}

theorem unmarked_sublist (clusters : List Nat) : (unmarked clusters).Sublist clusters := by
  cases clusters with
  | nil => exact List.Sublist.refl _
  | cons cluster rest => exact (List.takeWhile_sublist _).cons_cons cluster

theorem mem_followed {cluster : Nat} (member : cluster ∈ followed clusters) : cluster ∈ clusters :=
  (unmarked_sublist clusters).subset (List.mem_of_mem_take member)

theorem followed_all (short : clusters.length ≤ maxChain + 1) (clean : fat32Bad ∉ clusters.tail) :
    followed clusters = clusters := by
  have whole : unmarked clusters = clusters := by
    cases clusters with
    | nil => rfl
    | cons cluster rest =>
        rw [unmarked, List.takeWhile_eq_self_iff.mpr]
        intro other member
        exact decide_eq_true fun same : other = fat32Bad => clean (same ▸ member)
  rw [followed, whole, visible, List.take_of_length_le short]

section Follow

variable (consistent : fs.Consistent)
include consistent

theorem tableLba_inside {cluster : Nat} (inside : cluster / 128 < fs.bpb.fatSize32.toNat) :
    fs.tableLba cluster = fs.fatLba cluster := by
  rw [tableLba, consistent.firstCopySector inside, fatLba_eq]

theorem link_inside {cluster : Nat} (inside : cluster / 128 < fs.bpb.fatSize32.toNat) :
    fs.link device cluster = fs.entryOf device cluster := by
  rw [link, tableLba_inside consistent inside, entryOf, fatWord]

theorem follow_linked {cell : Nat} {rest : List Nat}
    (inside : ∀ cluster ∈ cell :: rest, 2 ≤ cluster ∧ cluster / 128 < fs.bpb.fatSize32.toNat)
    (distinct : (cell :: rest).Nodup) (linked : Linked (fs.entryOf device) id EndOfChain (cell :: rest))
    (ongoing : ∀ cluster ∈ rest, ¬EndOfChain cluster) :
    Linked (fs.follow device) some (· = none) (unmarked (cell :: rest)) := by
  induction rest generalizing cell with
  | nil =>
      have link := @link_inside fs device consistent cell (inside cell List.mem_cons_self).2
      have ended : fat32Eoc ≤ fs.entryOf device cell := linked.1
      simp [unmarked, linked_singleton, follow, link, ended]
  | cons next others ih =>
      have link := @link_inside fs device consistent cell (inside cell List.mem_cons_self).2
      have points : fs.entryOf device cell = next := linked.1
      have second := (inside next (by simp)).1
      have going : ¬next ≥ fat32Eoc := ongoing next List.mem_cons_self
      have apart : next ≠ cell := by
        rintro rfl
        simp at distinct
      by_cases bad : next = fat32Bad
      · simp [unmarked, bad, linked_singleton, follow, link, points]
      · have regular : unmarked (cell :: next :: others) = cell :: unmarked (next :: others) := by
          simp [unmarked, bad]
        rw [regular]
        refine ⟨?_, ih (fun cluster member => inside cluster (List.mem_cons_of_mem _ member))
          (List.nodup_cons.mp distinct).2 linked.2
          fun cluster member => ongoing cluster (List.mem_cons_of_mem _ member)⟩
        have ended : ¬(next ≥ fat32Eoc ∨ next = fat32Bad ∨ next = 0) := by omega
        have stuck : ¬(next < 2 ∨ next = cell) := by omega
        simp only [unmarked, Points, follow, link, points, if_neg ended, if_neg stuck]

theorem readChain_followed (chain : fs.EntryChain device start clusters) :
    fs.readChain start device =
      if (followed clusters).all fun cluster => device.readable (fs.fatLba cluster)
      then .ok (followed clusters) device
      else .error (.error "Sector read failed") device := by
  have inside := chain.inside
  cases clusters with
  | nil => exact absurd chain.head (by simp)
  | cons cell rest =>
      obtain rfl : cell = start := Option.some.inj chain.head
      have distinct : (unmarked (cell :: rest)).Nodup :=
        chain.distinct.sublist (unmarked_sublist _)
      rw [← List.nil_append (unmarked _)] at distinct
      have walked := walk_linked (maxChain + 1)
        (follow_linked consistent chain.inside chain.distinct chain.linked chain.ongoing) distinct
      have covered : walk (fs.follow device) (maxChain + 1) [] cell = followed (cell :: rest) := walked
      rw [readChain_eq consistent.sectorBytes (inside cell List.mem_cons_self).1, covered]
      have same : (followed (cell :: rest)).all (fun cluster => device.readable (fs.tableLba cluster)) =
          (followed (cell :: rest)).all fun cluster => device.readable (fs.fatLba cluster) := by
        rw [Bool.eq_iff_iff, List.all_eq_true, List.all_eq_true]
        refine forall₂_congr fun cluster member => ?_
        rw [tableLba_inside consistent (inside cluster (mem_followed member)).2]
      rw [same]

theorem writeFatEntries_effect (value : Nat)
    (inside : ∀ cluster ∈ clusters, cluster / 128 < fs.bpb.fatSize32.toNat)
    (ran : fs.writeFatEntries value clusters device = .ok () device') :
    (∀ cluster ∈ clusters, fs.entryOf device' cluster = value % 2 ^ 28) ∧
      ∀ other, other / 128 < fs.bpb.fatSize32.toNat → other ∉ clusters →
        fs.fatWord device' other = fs.fatWord device other := by
  induction clusters generalizing device with
  | nil =>
      injection ran with _ same
      exact ⟨by simp, fun other _ _ => by rw [same]⟩
  | cons cluster rest ih =>
      obtain ⟨_, middle, wrote, later⟩ := Lib.bind_ok.mp ran
      have here := inside cluster List.mem_cons_self
      obtain ⟨written, kept⟩ :=
        ih (fun other member => inside other (List.mem_cons_of_mem _ member)) later
      constructor
      · intro other member
        by_cases again : other ∈ rest
        · exact written other again
        · obtain rfl : other = cluster := (List.mem_cons.mp member).resolve_right again
          rw [entryOf, kept other here again, writeFatEntry_word consistent here wrote, mergedWord_mod]
      · intro other insideOther apart
        rw [List.mem_cons, not_or] at apart
        rw [kept other insideOther apart.2,
          writeFatEntry_word_other consistent here insideOther apart.1 wrote]

end Follow

/-- `read_chain` and `free_chain` cover a chain up to a link that is the bad mark and up to 100001
clusters, and so all of one without such a link that is not longer. -/
theorem chain_covered (fs : Fat32Fs) (consistent : fs.Consistent) (device : Device) (start : Nat)
    (clusters : List Nat) (chain : fs.EntryChain device start clusters) :
    ((∀ cluster ∈ clusters, device.readable (fs.fatLba cluster) = true) →
      fs.readChain start device = .ok (followed clusters) device) ∧
    (∀ device', fs.freeChain start device = .ok () device' →
      (∀ cluster ∈ followed clusters, fs.entryOf device' cluster = fat32Free) ∧
      ∀ other, other / 128 < fs.bpb.fatSize32.toNat → other ∉ followed clusters →
        fs.fatWord device' other = fs.fatWord device other) ∧
    (clusters.length ≤ 100001 → fat32Bad ∉ clusters.tail → followed clusters = clusters) := by
  have read := readChain_followed consistent chain
  refine ⟨fun readable => ?_, fun device' freed => ?_, followed_all⟩
  · rw [read, if_pos (List.all_eq_true.mpr fun cluster member =>
      readable cluster (mem_followed member))]
  · rw [freeChain, bind_apply, read] at freed
    split at freed
    next value middle ran =>
      split at ran
      · injection ran with same left
        subst same left
        exact writeFatEntries_effect consistent fat32Free
          (fun cluster member => (chain.inside cluster (mem_followed member)).2) freed
      · cases ran
    next => cases freed

end Fat32Fs

/-! A chain of 100002 clusters, and a short one. -/

def longFs : Fat32Fs where
  bpb :=
    { bytesPerSector := 512, sectorsPerCluster := 1, reservedSectorCount := 1, numFats := 1,
      totalSectors32 := 102801, fatSize32 := 800, rootCluster := 2 }
  partitionLba := 0

theorem longFs_consistent : longFs.Consistent := by
  refine ⟨by decide, by decide, by decide, by decide, ?_⟩
  rintro cluster ⟨_, below⟩
  have clusters : longFs.bpb.totalClusters = 102000 := by decide
  have size : longFs.bpb.fatSize32.toNat = 800 := by decide
  rw [clusters] at below
  rw [size]
  omega

def longEntry (cluster : Nat) : Nat := if cluster = 100003 then fat32Eoc else cluster + 1

def longDevice : Device where
  sector lba := ⟨(List.range sectorSize).map fun index =>
    UInt8.ofNat (longEntry ((lba - 1) * 128 + index / 4) / 256 ^ (index % 4)), by simp⟩
  readable _ := true
  writable _ := true

theorem longDevice_entry {cluster : Nat} (below : cluster ≤ 100003) :
    longFs.entryOf longDevice cluster = longEntry cluster := by
  have small : longEntry cluster < 2 ^ 28 := by
    rw [longEntry, fat32Eoc]
    split <;> omega
  have place : longFs.fatLba cluster = 1 + cluster / 128 := by
    simp [Fat32Fs.fatLba, longFs]
  have bytes : bytesAt (longDevice.sector (1 + cluster / 128)).val (cluster % 128 * 4) 4 =
      leBytes 4 (longEntry cluster) := by
    rw [leBytes_eq_map, bytesAt]
    refine List.map_congr_left fun index inside => ?_
    have index_lt := List.mem_range.mp inside
    have within : cluster % 128 * 4 + index < sectorSize := by
      rw [sectorSize]
      omega
    have entry : cluster / 128 * 128 + (cluster % 128 * 4 + index) / 4 = cluster := by omega
    have byte : (cluster % 128 * 4 + index) % 4 = index := by omega
    simp [longDevice, byteAt, within, entry, byte]
  rw [Fat32Fs.entryOf, Fat32Fs.fatWord, place, bytes, ofLeBytes_leBytes, Nat.mod_mod_of_dvd _ (by decide),
    Nat.mod_eq_of_lt small]

theorem longDevice_chain :
    longFs.EntryChain longDevice 2 (List.range' 2 100002) := by
  have below {cluster : Nat} (member : cluster ∈ List.range' 2 100002) :
      2 ≤ cluster ∧ cluster ≤ 100003 := by
    have := List.mem_range'_1.mp member
    omega
  refine ⟨rfl, ?_, List.nodup_range', ?_, ?_⟩
  · intro cluster member
    have size : longFs.bpb.fatSize32.toNat = 800 := by decide
    have bounds := below member
    rw [size]
    omega
  · refine linked_range' 2 100002 ?_ ?_
    · intro cluster _ before
      rw [longDevice_entry (by omega), longEntry, if_neg (by omega)]
    · intro cluster last
      rw [longDevice_entry (by omega), longEntry, if_pos (by omega)]
      exact Nat.le_refl _
  · intro cluster member
    have bounds := below (List.mem_of_mem_tail member)
    rw [EndOfChain, fat32Eoc]
    omega

/-- The last cluster of the long chain is not read, and so not freed. -/
theorem long_chain_cut : longFs.Consistent ∧
    longFs.EntryChain longDevice 2 (List.range' 2 100002) ∧
    longFs.readChain 2 longDevice ≠ .ok (List.range' 2 100002) longDevice := by
  refine ⟨longFs_consistent, longDevice_chain, fun whole => ?_⟩
  have readable : ((Fat32Fs.followed (List.range' 2 100002)).all fun cluster =>
      longDevice.readable (longFs.fatLba cluster)) = true := List.all_eq_true.mpr fun _ _ => rfl
  rw [Fat32Fs.readChain_followed longFs_consistent longDevice_chain, if_pos readable] at whole
  injection whole with same _
  have short : (Fat32Fs.followed (List.range' 2 100002)).length ≤ 100001 := List.length_take_le _ _
  rw [same, List.length_range'] at short
  omega

/-- The table leads from cluster 3 over 5 to 4. -/
def linkedDevice : Device where
  sector lba :=
    if lba = 1 then
      filledSector 12 (leBytes 4 5 ++ leBytes 4 fat32Eoc ++ leBytes 4 4) (by decide)
    else ⟨zeros sectorSize, length_zeros _⟩
  readable _ := true
  writable _ := true

theorem linked_entryChain : smallFs.EntryChain linkedDevice 3 [3, 5, 4] := by
  have links : smallFs.entryOf linkedDevice 3 = 5 ∧ smallFs.entryOf linkedDevice 5 = 4 ∧
      smallFs.entryOf linkedDevice 4 = fat32Eoc := by decide
  refine ⟨rfl, by decide, by decide, ?_, ?_⟩
  · simp [Linked, Points, links, EndOfChain]
  · simp [EndOfChain, fat32Eoc]

theorem chain_covered_linked :
    smallFs.readChain 3 linkedDevice = .ok [3, 5, 4] linkedDevice ∧
      ∀ device', smallFs.freeChain 3 linkedDevice = .ok () device' →
        ∀ cluster ∈ [3, 5, 4], smallFs.entryOf device' cluster = fat32Free := by
  obtain ⟨read, freed, whole⟩ := Fat32Fs.chain_covered smallFs smallFs_geometry.consistent
    linkedDevice 3 [3, 5, 4] linked_entryChain
  rw [whole (by decide) (by decide)] at read freed
  exact ⟨read fun _ _ => rfl, fun device' ran => (freed device' ran).1⟩

end ArcadiaOs.Fs
