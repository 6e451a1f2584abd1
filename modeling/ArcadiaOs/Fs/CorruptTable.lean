import ArcadiaOs.Fs.ClusterOwnership
import ArcadiaOs.Fs.Confinement
import ArcadiaOs.Lib.Walk

/-!
`read_chain` on any content of the allocation table.  It ends and repeats no cluster, but
it follows every link from 2 on, wherever that leads.
-/

namespace ArcadiaOs.Fs

open Lib

namespace Fat32Fs

def tableLba (fs : Fat32Fs) (cluster : Nat) : Nat :=
  wrap32 (fs.partitionLba.toNat + wrap32 (fs.bpb.fatStartSector + cluster / 128))

def link (fs : Fat32Fs) (device : Device) (cluster : Nat) : Nat :=
  ofLeBytes (bytesAt (device.sector (fs.tableLba cluster)).val (cluster % 128 * 4) 4) % 2 ^ 28

def follow (fs : Fat32Fs) (device : Device) (cluster : Nat) : Option Nat :=
  if fs.link device cluster ≥ fat32Eoc ∨ fs.link device cluster = fat32Bad ∨
    fs.link device cluster = 0 then none
  else if fs.link device cluster < 2 ∨ fs.link device cluster = cluster then none
  else some (fs.link device cluster)

def Reaches (fs : Fat32Fs) (device : Device) (start steps cluster : Nat) : Prop :=
  2 ≤ start ∧ stepsTo (fs.follow device) start steps = some cluster

variable {fs : Fat32Fs} {device : Device}

section Read

variable (sectorBytes : fs.bpb.sectorBytes = sectorSize)
include sectorBytes

theorem readFatEntry_eq (cluster : Nat) : fs.readFatEntry cluster device =
    if device.readable (fs.tableLba cluster) then .ok (fs.link device cluster) device
    else .error (.error "Sector read failed") device := by
  have entries : fs.entriesPerSector = 128 := by
    rw [entriesPerSector, sectorBytes, sectorSize]
  have long : ¬(zeros fs.bpb.sectorBytes).length < sectorSize := by
    rw [length_zeros, sectorBytes]
    exact Nat.lt_irrefl _
  have whole : splice (zeros fs.bpb.sectorBytes) 0 (device.sector (fs.tableLba cluster)).val =
      (device.sector (fs.tableLba cluster)).val :=
    splice_whole (by rw [length_zeros, sectorBytes, (device.sector _).property])
  simp only [readFatEntry, entries]
  rw [if_neg (by decide)]
  split
  · rename_i readable
    have ran : fs.readSectorBuf (wrap32 (fs.bpb.fatStartSector + cluster / 128))
        (zeros fs.bpb.sectorBytes) device =
        .ok (device.sector (fs.tableLba cluster)).val device := by
      rw [tableLba] at readable whole ⊢
      simp only [readSectorBuf, Disk.mapErr, readSector, if_neg long, readable, if_true, whole]
    rw [Disk.bind_ok ran]
    rfl
  · rename_i unreadable
    have failed : fs.readSectorBuf (wrap32 (fs.bpb.fatStartSector + cluster / 128))
        (zeros fs.bpb.sectorBytes) device = .error (.error "Sector read failed") device := by
      rw [tableLba] at unreadable
      simp only [readSectorBuf, Disk.mapErr, readSector, if_neg long, if_neg unreadable]
    exact Disk.bind_error failed _

/-- The loop of `read_chain` is a walk along the links, as far as it can read them. -/
theorem readChainFrom_eq (turns : Nat) (path : List Nat) (cluster : Nat) (present : 2 ≤ cluster)
    (read : ∀ other ∈ path, device.readable (fs.tableLba other) = true) :
    fs.readChainFrom turns path cluster device =
      if (walk (fs.follow device) turns path cluster).all fun other =>
          device.readable (fs.tableLba other)
      then .ok (walk (fs.follow device) turns path cluster) device
      else .error (.error "Sector read failed") device := by
  induction turns generalizing path cluster with
  | zero =>
      rw [walk, if_pos (List.all_eq_true.mpr read)]
      rfl
  | succ turns ih =>
      rw [readChainFrom, if_neg (by omega)]
      by_cases readable : device.readable (fs.tableLba cluster) = true
      · have ran : fs.readFatEntry cluster device = .ok (fs.link device cluster) device := by
          rw [readFatEntry_eq sectorBytes, if_pos readable]
        have readHere : ∀ other ∈ path ++ [cluster],
            device.readable (fs.tableLba other) = true := by
          intro other member
          rcases List.mem_append.mp member with old | new
          · exact read other old
          · exact List.mem_singleton.mp new ▸ readable
        have stopped : (path ++ [cluster]).all
            (fun other => device.readable (fs.tableLba other)) = true :=
          List.all_eq_true.mpr readHere
        rw [Disk.bind_ok ran, walk]
        by_cases ended : fs.link device cluster ≥ fat32Eoc ∨ fs.link device cluster = fat32Bad ∨
          fs.link device cluster = 0
        · rw [follow, if_pos ended, if_pos ended, if_pos stopped]
          rfl
        by_cases stuck : fs.link device cluster < 2 ∨ fs.link device cluster = cluster
        · rw [follow, if_neg ended, if_pos stuck, if_neg ended, if_pos stuck, if_pos stopped]
          rfl
        rw [follow, if_neg ended, if_neg stuck, if_neg ended, if_neg stuck]
        by_cases seen : fs.link device cluster ∈ path ++ [cluster]
        · simp only [if_pos seen]
          rw [if_pos stopped]
          rfl
        · simp only [if_neg seen]
          exact ih _ _ (by omega) readHere
      · have failed : fs.readFatEntry cluster device =
            .error (.error "Sector read failed") device := by
          rw [readFatEntry_eq sectorBytes, if_neg readable]
        rw [Disk.bind_error failed, if_neg]
        intro all
        exact readable (List.all_eq_true.mp all cluster (mem_walk_self _ _ _))

theorem readChain_eq {start : Nat} (present : 2 ≤ start) : fs.readChain start device =
    if (walk (fs.follow device) (maxChain + 1) [] start).all fun other =>
        device.readable (fs.tableLba other)
    then .ok (walk (fs.follow device) (maxChain + 1) [] start) device
    else .error (.error "Sector read failed") device :=
  readChainFrom_eq sectorBytes _ _ _ present nofun

end Read

theorem readChain_absent {start : Nat} (absent : start < 2) :
    fs.readChain start device = .ok [] device := by
  rw [readChain, readChainFrom, if_pos absent]
  rfl

theorem readChain_bounded (sectorBytes : fs.bpb.sectorBytes = sectorSize) {start : Nat}
    {chain : List Nat} {device' : Device} (ran : fs.readChain start device = .ok chain device') :
    chain.Nodup ∧ chain.length ≤ maxChain + 1 := by
  by_cases absent : start < 2
  · rw [readChain_absent absent] at ran
    injection ran with same _
    subst same
    exact ⟨List.nodup_nil, Nat.zero_le _⟩
  · rw [readChain_eq sectorBytes (by omega)] at ran
    split at ran
    · injection ran with same _
      subst same
      refine ⟨walk_nodup _ (List.nodup_singleton start), ?_⟩
      exact (length_walk _ _ _).trans (by rw [List.length_nil, Nat.zero_add])
    · cases ran

theorem readChain_ends (sectorBytes : fs.bpb.sectorBytes = sectorSize) (start : Nat) :
    (∃ chain, fs.readChain start device = .ok chain device) ∨
      fs.readChain start device = .error (.error "Sector read failed") device := by
  by_cases absent : start < 2
  · exact .inl ⟨[], readChain_absent absent⟩
  · rw [readChain_eq sectorBytes (by omega)]
    split
    · exact .inl ⟨_, rfl⟩
    · exact .inr rfl

theorem readChain_confined (consistent : fs.Consistent) {start : Nat} {chain : List Nat}
    (ran : fs.readChain start device = .ok chain device)
    (valid : ∀ cluster ∈ chain, fs.Valid cluster) : fs.Confined (fs.readChain start) device := by
  constructor
  · rw [ran]
    exact fun _ _ => rfl
  · intro other same
    rw [ran]
    by_cases absent : start < 2
    · rw [readChain_absent absent] at ran
      injection ran with empty _
      rw [readChain_absent absent]
      exact ⟨empty.symm, same⟩
    · rw [readChain_eq consistent.sectorBytes (by omega)] at ran
      split at ran
      · rename_i read
        injection ran with collected _
        have inside : ∀ cluster ∈ walk (fs.follow device) (maxChain + 1) [] start,
            other.sector (fs.tableLba cluster) = device.sector (fs.tableLba cluster) ∧
              other.readable (fs.tableLba cluster) = device.readable (fs.tableLba cluster) := by
          intro cluster member
          have agreed := same _ (consistent.tableRead_inside (valid cluster (collected ▸ member)))
          exact ⟨agreed.1, agreed.2.1⟩
        have links : ∀ cluster ∈ walk (fs.follow device) (maxChain + 1) [] start,
            fs.follow other cluster = fs.follow device cluster := by
          intro cluster member
          have same : fs.link other cluster = fs.link device cluster := by
            rw [link, link, (inside cluster member).1]
          rw [follow, follow, same]
        have followed := walk_congr _ _ _ links
        have readOther : (walk (fs.follow device) (maxChain + 1) [] start).all
            (fun cluster => other.readable (fs.tableLba cluster)) = true := by
          rw [List.all_eq_true] at read ⊢
          intro cluster member
          rw [(inside cluster member).2]
          exact read cluster member
        rw [readChain_eq consistent.sectorBytes (by omega), followed, if_pos readOther]
        exact ⟨collected.symm, same⟩
      · cases ran

/-- The chain stays in the volume, and so does every operation that follows it. -/
structure StaysInside (fs : Fat32Fs) (start : Nat) (device : Device) (chain : List Nat) : Prop where
  clusters : ∀ cluster ∈ chain, fs.Valid cluster
  readFile : ∀ size buf, fs.Confined (fs.readFile start size buf) device
  readDirEntries : fs.Confined (fs.readDirEntries start) device
  writeFileData : ∀ data, fs.Confined (fs.writeFileData start data) device
  freeChain : fs.Confined (fs.freeChain start) device

theorem staysInside_of_valid (consistent : fs.Consistent) {start : Nat} {chain : List Nat}
    (ran : fs.readChain start device = .ok chain device)
    (valid : ∀ cluster ∈ chain, fs.Valid cluster) : fs.StaysInside start device chain := by
  have chained := readChain_confined consistent ran valid
  have held : ∀ found device', fs.readChain start device = .ok found device' →
      ∀ cluster ∈ found, fs.Valid cluster := by
    intro found device' again
    rw [ran] at again
    injection again with same _
    exact same ▸ valid
  exact ⟨valid, readFile_confined consistent chained held,
    readDirEntries_confined consistent chained held, writeFileData_confined consistent chained held,
    freeChain_confined consistent chained held⟩

theorem mem_walk_follow {start : Nat} (present : 2 ≤ start) (cluster : Nat) :
    cluster ∈ walk (fs.follow device) (maxChain + 1) [] start ↔
      ∃ steps, steps ≤ maxChain ∧ fs.Reaches device start steps cluster := by
  rw [mem_walk_iff]
  constructor
  · rintro ⟨steps, bound, reached⟩
    exact ⟨steps, by omega, present, reached⟩
  · rintro ⟨steps, bound, _, reached⟩
    exact ⟨steps, by omega, reached⟩

theorem staysInside_iff (consistent : fs.Consistent) (device : Device) (start : Nat) :
    (∀ chain device', fs.readChain start device = .ok chain device' →
        fs.StaysInside start device chain) ↔
      (∀ steps cluster, steps ≤ maxChain → fs.Reaches device start steps cluster →
        fs.Valid cluster) ∨
      ∃ steps cluster, steps ≤ maxChain ∧ fs.Reaches device start steps cluster ∧
        device.readable (fs.tableLba cluster) = false := by
  by_cases absent : start < 2
  · have empty : fs.readChain start device = _ := readChain_absent absent
    refine iff_of_true (fun chain device' ran => ?_) (.inl fun steps cluster _ reached => ?_)
    · rw [empty] at ran
      injection ran with same _
      subst same
      exact staysInside_of_valid consistent empty nofun
    · exact absurd reached.1 (by omega)
  have present : 2 ≤ start := by omega
  have outcome : fs.readChain start device = _ := readChain_eq consistent.sectorBytes present
  by_cases read : (walk (fs.follow device) (maxChain + 1) [] start).all
      (fun cluster => device.readable (fs.tableLba cluster)) = true
  · rw [if_pos read] at outcome
    rw [List.all_eq_true] at read
    constructor
    · intro inside
      refine .inl fun steps cluster bound reached => ?_
      exact (inside _ _ outcome).clusters cluster
        ((mem_walk_follow present cluster).mpr ⟨steps, bound, reached⟩)
    · rintro (valid | ⟨steps, cluster, bound, reached, unreadable⟩)
      · intro chain device' ran
        rw [outcome] at ran
        injection ran with same _
        subst same
        refine staysInside_of_valid consistent outcome fun cluster member => ?_
        obtain ⟨steps, bound, reached⟩ := (mem_walk_follow present cluster).mp member
        exact valid steps cluster bound reached
      · have readable := read cluster ((mem_walk_follow present cluster).mpr ⟨steps, bound, reached⟩)
        rw [unreadable] at readable
        cases readable
  · rw [if_neg read] at outcome
    refine iff_of_true (fun chain device' ran => ?_) (.inr ?_)
    · rw [outcome] at ran
      cases ran
    · rw [List.all_eq_true, not_forall] at read
      obtain ⟨cluster, unread⟩ := read
      rw [Classical.not_imp] at unread
      obtain ⟨member, unreadable⟩ := unread
      obtain ⟨steps, bound, reached⟩ := (mem_walk_follow present cluster).mp member
      exact ⟨steps, cluster, bound, reached, by simpa using unreadable⟩

/-- Whatever the device holds, `read_chain` ends without a cluster twice; it stays in the volume, with
the operations that follow it, exactly when the links do or a read of them fails. -/
theorem corrupt_table_iff (consistent : fs.Consistent) (device : Device) (start : Nat) :
    ((∃ chain, fs.readChain start device = .ok chain device ∧ chain.Nodup ∧
        chain.length ≤ maxChain + 1) ∨
      fs.readChain start device = .error (.error "Sector read failed") device) ∧
    ((∀ chain device', fs.readChain start device = .ok chain device' →
        fs.StaysInside start device chain) ↔
      (∀ steps cluster, steps ≤ maxChain → fs.Reaches device start steps cluster →
        fs.Valid cluster) ∨
      ∃ steps cluster, steps ≤ maxChain ∧ fs.Reaches device start steps cluster ∧
        device.readable (fs.tableLba cluster) = false) := by
  refine ⟨?_, staysInside_iff consistent device start⟩
  rcases readChain_ends consistent.sectorBytes start with ⟨chain, ran⟩ | failed
  · exact .inl ⟨chain, ran, readChain_bounded consistent.sectorBytes ran⟩
  · exact .inr failed

end Fat32Fs

/-- The table of the small volume with a link from the root directory's cluster to cluster 1000. -/
def strayDevice : Device where
  sector lba :=
    if lba = 1 then filledSector 8 (leBytes 4 1000) (by decide)
    else ⟨zeros sectorSize, length_zeros _⟩
  readable _ := true
  writable _ := true

theorem corrupt_table_blank :
    ((∃ chain, smallFs.readChain 2 blankDevice = .ok chain blankDevice ∧ chain.Nodup ∧
        chain.length ≤ Fat32Fs.maxChain + 1) ∨
      smallFs.readChain 2 blankDevice = .error (.error "Sector read failed") blankDevice) ∧
    ((∀ chain device', smallFs.readChain 2 blankDevice = .ok chain device' →
        smallFs.StaysInside 2 blankDevice chain) ↔
      (∀ steps cluster, steps ≤ Fat32Fs.maxChain → smallFs.Reaches blankDevice 2 steps cluster →
        smallFs.Valid cluster) ∨
      ∃ steps cluster, steps ≤ Fat32Fs.maxChain ∧ smallFs.Reaches blankDevice 2 steps cluster ∧
        blankDevice.readable (smallFs.tableLba cluster) = false) :=
  Fat32Fs.corrupt_table_iff smallFs_geometry.consistent blankDevice 2

/-- The chain leads to cluster 1000 of a volume of eight clusters. -/
theorem stray_link_followed : smallFs.Consistent ∧
    smallFs.readChain 2 strayDevice = .ok [2, 1000] strayDevice ∧
    ¬smallFs.StaysInside 2 strayDevice [2, 1000] := by
  refine ⟨smallFs_geometry.consistent,
    (smallFs.readChain_readOnly 2).answer_ok_iff.mp (by decide +kernel), fun inside => ?_⟩
  exact absurd (inside.clusters 1000 (by simp)) (by decide)

end ArcadiaOs.Fs
