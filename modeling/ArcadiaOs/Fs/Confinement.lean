import ArcadiaOs.Fs.Volume
import ArcadiaOs.Fs.DirCore
import ArcadiaOs.Lib.Locality

/-!
Operations that stay inside the volume.  On clusters of the volume the driver reads and
writes sectors of the allocation table and of the data area only: nothing else on the
device has a say in what it does, and nothing else changes.
-/

namespace ArcadiaOs.Fs

open Lib

namespace Fat32Fs

def tableStart (fs : Fat32Fs) : Nat := fs.partitionLba.toNat + fs.bpb.reservedSectorCount.toNat

def dataStart (fs : Fat32Fs) : Nat :=
  fs.tableStart + fs.bpb.numFats.toNat * fs.bpb.fatSize32.toNat

def InTable (fs : Fat32Fs) (lba : Nat) : Prop := fs.tableStart ≤ lba ∧ lba < fs.dataStart

def InData (fs : Fat32Fs) (lba : Nat) : Prop :=
  fs.dataStart ≤ lba ∧ lba < fs.dataStart + fs.bpb.totalClusters * fs.bpb.sectorsPerCluster.toNat

def Inside (fs : Fat32Fs) (lba : Nat) : Prop := fs.InTable lba ∨ fs.InData lba

/-- Devices that are the same inside the volume. -/
def Agree (fs : Fat32Fs) (device other : Device) : Prop :=
  ∀ lba, fs.Inside lba → other.sector lba = device.sector lba ∧
    other.readable lba = device.readable lba ∧ other.writable lba = device.writable lba

def Kept (fs : Fat32Fs) (device device' : Device) : Prop :=
  ∀ lba, ¬fs.Inside lba → device'.sector lba = device.sector lba

/-- From the device, the action touches sectors inside the volume only. -/
def Confined (fs : Fat32Fs) {ε α : Type} (action : Disk ε α) (device : Device) : Prop :=
  LocalAt fs.Agree fs.Kept action device

section Rules

variable {fs : Fat32Fs} {ε ε' α β : Type} {device : Device}

theorem Confined.pure (value : α) : fs.Confined (Pure.pure value : Disk ε α) device :=
  LocalAt.pure (fun _ _ _ => rfl) value

theorem Confined.fail (reason : ε) : fs.Confined (Disk.fail reason : Disk ε α) device :=
  LocalAt.throw (fun _ _ _ => rfl) _

theorem Confined.panics : fs.Confined (Disk.panics : Disk ε α) device :=
  LocalAt.throw (fun _ _ _ => rfl) _

theorem Confined.bind {first : Disk ε α} {next : α → Disk ε β} (here : fs.Confined first device)
    (later : ∀ value device', first device = .ok value device' →
      fs.Confined (next value) device') : fs.Confined (first >>= next) device :=
  LocalAt.bind (fun _ _ _ before after lba outside =>
    (after lba outside).trans (before lba outside)) here later

theorem Confined.mapErr {action : Disk ε α} (here : fs.Confined action device)
    (convert : ε → ε') : fs.Confined (action.mapErr convert) device := by
  obtain ⟨keeps, agrees⟩ := here
  constructor
  · simp only [Disk.mapErr]
    cases ran : action device with
    | ok value device' =>
        rw [ran] at keeps
        exact keeps
    | error halt device' =>
        rw [ran] at keeps
        cases halt with
        | panic => exact keeps
        | error reason => exact keeps
  · intro other same
    have outcome := agrees other same
    simp only [Disk.mapErr]
    cases ran : action device with
    | ok value device' =>
        rw [ran] at outcome
        cases ranOther : action other with
        | ok value' other' =>
            rw [ranOther] at outcome
            exact outcome
        | error halt other' =>
            rw [ranOther] at outcome
            exact outcome.elim
    | error halt device' =>
        rw [ran] at outcome
        cases ranOther : action other with
        | ok value' other' =>
            rw [ranOther] at outcome
            exact outcome.elim
        | error halt' other' =>
            rw [ranOther] at outcome
            obtain ⟨rfl, agreeing⟩ := outcome
            cases halt with
            | panic => exact ⟨rfl, agreeing⟩
            | error reason => exact ⟨rfl, agreeing⟩

end Rules

section Sectors

variable {fs : Fat32Fs} {device : Device}

theorem readSectorBuf_confined {lba : Nat} (inside : fs.Inside (wrap32 (fs.partitionLba.toNat + lba)))
    (buf : List UInt8) : fs.Confined (fs.readSectorBuf lba buf) device := by
  refine .mapErr ⟨?_, fun other same => ?_⟩ _
  · simp only [readSector]
    split
    · exact fun _ _ => rfl
    · split <;> exact fun _ _ => rfl
  · obtain ⟨sector, readable, _⟩ := same _ inside
    simp only [readSector, sector, readable]
    split
    · exact ⟨rfl, same⟩
    · split
      · exact ⟨rfl, same⟩
      · exact ⟨rfl, same⟩

theorem writeSectorBuf_confined {lba : Nat}
    (inside : fs.Inside (wrap32 (fs.partitionLba.toNat + lba))) (buf : List UInt8) :
    fs.Confined (fs.writeSectorBuf lba buf) device := by
  refine .mapErr ⟨?_, fun other same => ?_⟩ _
  · simp only [writeSector]
    split
    · exact fun _ _ => rfl
    · split
      · intro place outside
        have apart : place ≠ wrap32 (fs.partitionLba.toNat + lba) := by
          rintro rfl
          exact outside inside
        exact Function.update_of_ne apart _ _
      · exact fun _ _ => rfl
  · obtain ⟨_, _, writable⟩ := same _ inside
    simp only [writeSector, writable]
    split
    · exact ⟨rfl, same⟩
    · split
      · refine ⟨rfl, fun place within => ?_⟩
        obtain ⟨sector, readable, writable⟩ := same place within
        refine ⟨?_, readable, writable⟩
        by_cases written : place = wrap32 (fs.partitionLba.toNat + lba)
        · simp only [written, Function.update_self]
        · simp only [Function.update_of_ne written, sector]
      · exact ⟨rfl, same⟩

theorem readSectors_confined {sector count index : Nat}
    (inside : ∀ place, place < index + count →
      fs.Inside (wrap32 (fs.partitionLba.toNat + wrap32 (sector + place)))) (buf : List UInt8) :
    fs.Confined (fs.readSectors sector count index buf) device := by
  induction count generalizing index buf device with
  | zero => exact .pure _
  | succ count ih =>
      refine .bind (readSectorBuf_confined (inside index (by omega)) _) fun part _ _ => ?_
      exact ih (fun place bound => inside place (by omega)) _

theorem writeSectors_confined {sector count index : Nat}
    (inside : ∀ place, place < index + count →
      fs.Inside (wrap32 (fs.partitionLba.toNat + wrap32 (sector + place)))) (buf : List UInt8) :
    fs.Confined (fs.writeSectors sector buf count index) device := by
  induction count generalizing index device with
  | zero => exact .pure _
  | succ count ih =>
      refine .bind (writeSectorBuf_confined (inside index (by omega)) _) fun _ _ _ => ?_
      exact ih fun place bound => inside place (by omega)

end Sectors

section Allocation

variable {fs : Fat32Fs} {device device' : Device} {clusters : List Nat}

theorem allocFrom_mem {cluster : Nat}
    (ran : fs.allocFrom clusters device = .ok cluster device') : cluster ∈ clusters := by
  induction clusters generalizing device with
  | nil => cases ran
  | cons first rest ih =>
      obtain ⟨val, middle, _, ran⟩ := Lib.bind_ok.mp ran
      split at ran
      · obtain ⟨_, _, _, ran⟩ := Lib.bind_ok.mp ran
        injection ran with same _
        exact same ▸ List.mem_cons_self
      · exact List.mem_cons_of_mem _ (ih ran)

theorem candidates_valid : ∀ cluster ∈ List.range' 2 (wrap32 (fs.bpb.totalClusters + 2) - 2),
    fs.Valid cluster := by
  intro cluster member
  have wrapped : wrap32 (fs.bpb.totalClusters + 2) ≤ fs.bpb.totalClusters + 2 := Nat.mod_le _ _
  rw [List.mem_range'_1] at member
  exact ⟨member.1, by omega⟩

theorem allocCluster_valid {cluster : Nat}
    (ran : fs.allocCluster device = .ok cluster device') : fs.Valid cluster := by
  rw [allocCluster] at ran
  split at ran
  · cases ran
  split at ran
  · cases ran
  · dsimp only at ran
    split at ran
    · cases ran
    · exact candidates_valid cluster (allocFrom_mem ran)

theorem extendClusters_valid {count : Nat} {result : List Nat}
    (valid : ∀ cluster ∈ clusters, fs.Valid cluster)
    (ran : fs.extendClusters count clusters device = .ok result device') :
    ∀ cluster ∈ result, fs.Valid cluster := by
  induction count generalizing clusters device with
  | zero =>
      injection ran with same _
      exact same ▸ valid
  | succ count ih =>
      obtain ⟨added, _, allocated, ran⟩ := Lib.bind_ok.mp ran
      refine ih (fun cluster member => ?_) ran
      rcases List.mem_append.mp member with old | new
      · exact valid cluster old
      · exact List.mem_singleton.mp new ▸ allocCluster_valid allocated

end Allocation

section Clusters

variable {fs : Fat32Fs} (consistent : fs.Consistent)
include consistent

theorem Consistent.tableSector_inside {cluster copy : Nat} (valid : fs.Valid cluster)
    (bound : copy < fs.bpb.numFats.toNat) :
    fs.Inside (wrap32 (fs.partitionLba.toNat +
      wrap32 (fs.bpb.fatStartSector + cluster / 128 + copy * fs.bpb.fatSize32.toNat))) := by
  have fits := valid.dataFits
  have some := consistent.clusterSectors
  have addressable := consistent.addressable
  have covered := consistent.covered cluster valid
  have stride := Nat.mul_le_mul_right fs.bpb.fatSize32.toNat
    (show copy + 1 ≤ fs.bpb.numFats.toNat from bound)
  rw [Nat.add_mul, Nat.one_mul] at stride
  rw [Fat32Bpb.fatStartSector, wrap32, wrap32]
  rw [Nat.mod_eq_of_lt (a := fs.bpb.reservedSectorCount.toNat + _ + _) (by omega),
    Nat.mod_eq_of_lt (by omega)]
  refine .inl ⟨?_, ?_⟩
  · rw [tableStart]
    omega
  · rw [dataStart, tableStart]
    omega

theorem Consistent.tableRead_inside {cluster : Nat} (valid : fs.Valid cluster) :
    fs.Inside (wrap32 (fs.partitionLba.toNat + wrap32 (fs.bpb.fatStartSector + cluster / 128))) := by
  have first := consistent.tableSector_inside valid consistent.copies
  rwa [Nat.zero_mul, Nat.add_zero] at first

theorem Consistent.dataSector_inside {cluster index : Nat} (valid : fs.Valid cluster)
    (bound : index < fs.bpb.sectorsPerCluster.toNat) :
    fs.Inside (wrap32 (fs.partitionLba.toNat +
      wrap32 (fs.bpb.clusterToSector cluster + index))) := by
  have fits := valid.dataFits
  have addressable := consistent.addressable
  simp only [Fat32Bpb.clusterToSector, Fat32Bpb.dataStartSector, wrap32]
  rw [Nat.mod_eq_of_lt (a := fs.bpb.numFats.toNat * _) (by omega),
    Nat.mod_eq_of_lt (a := fs.bpb.reservedSectorCount.toNat + _) (by omega),
    Nat.mod_eq_of_lt (a := (cluster - 2) * _) (by omega),
    Nat.mod_eq_of_lt (a := fs.bpb.reservedSectorCount.toNat + _ + _) (by omega),
    Nat.mod_eq_of_lt (a := _ + index) (by omega), Nat.mod_eq_of_lt (by omega)]
  refine .inr ⟨?_, ?_⟩
  · rw [dataStart, tableStart]
    omega
  · rw [dataStart, tableStart]
    omega

variable {device : Device}

theorem readCluster_confined {cluster : Nat} (valid : fs.Valid cluster) (buf : List UInt8) :
    fs.Confined (fs.readCluster cluster buf) device := by
  rw [readCluster]
  split
  · exact .fail _
  · refine readSectors_confined (fun place bound => ?_) _
    exact consistent.dataSector_inside valid (by omega)

theorem writeCluster_confined {cluster : Nat} (valid : fs.Valid cluster) (buf : List UInt8) :
    fs.Confined (fs.writeCluster cluster buf) device := by
  rw [writeCluster]
  split
  · exact .fail _
  · refine writeSectors_confined (fun place bound => ?_) _
    exact consistent.dataSector_inside valid (by omega)

theorem readFatEntry_confined {cluster : Nat} (valid : fs.Valid cluster) :
    fs.Confined (fs.readFatEntry cluster) device := by
  rw [readFatEntry]
  split
  · exact .panics
  · refine .bind (readSectorBuf_confined ?_ _) fun _ _ _ => .pure _
    rw [consistent.entries]
    exact consistent.tableRead_inside valid

theorem writeFatCopies_confined {cluster : Nat} (valid : fs.Valid cluster) {count index : Nat}
    (bound : index + count ≤ fs.bpb.numFats.toNat) (buf : List UInt8) :
    fs.Confined (fs.writeFatCopies (cluster / 128) buf count index) device := by
  induction count generalizing index device with
  | zero => exact .pure _
  | succ count ih =>
      refine .bind (writeSectorBuf_confined ?_ _) fun _ _ _ => ih (by omega)
      exact consistent.tableSector_inside valid (by omega)

theorem writeFatEntry_confined {cluster : Nat} (valid : fs.Valid cluster) (value : Nat) :
    fs.Confined (fs.writeFatEntry cluster value) device := by
  rw [writeFatEntry]
  split
  · exact .panics
  · simp only [consistent.entries]
    refine .bind (readSectorBuf_confined (consistent.tableRead_inside valid) _) fun _ _ _ => ?_
    exact writeFatCopies_confined consistent valid (by omega) _

/-! Lists of valid clusters. -/

variable {clusters : List Nat}

theorem writeFatEntries_confined (value : Nat) (valid : ∀ cluster ∈ clusters, fs.Valid cluster) :
    fs.Confined (fs.writeFatEntries value clusters) device := by
  induction clusters generalizing device with
  | nil => exact .pure _
  | cons cluster rest ih =>
      rw [List.forall_mem_cons] at valid
      exact .bind (writeFatEntry_confined consistent valid.1 _) fun _ _ _ => ih valid.2

theorem linkClusters_confined (valid : ∀ cluster ∈ clusters, fs.Valid cluster) :
    fs.Confined (fs.linkClusters clusters) device := by
  induction clusters generalizing device with
  | nil => exact .pure _
  | cons cluster rest ih =>
      rw [List.forall_mem_cons] at valid
      exact .bind (writeFatEntry_confined consistent valid.1 _) fun _ _ _ => ih valid.2

theorem writeParts_confined (data : List UInt8) (index : Nat)
    (valid : ∀ cluster ∈ clusters, fs.Valid cluster) :
    fs.Confined (fs.writeParts data clusters index) device := by
  induction clusters generalizing index device with
  | nil => exact .pure _
  | cons cluster rest ih =>
      rw [List.forall_mem_cons] at valid
      exact .bind (writeCluster_confined consistent valid.1 _) fun _ _ _ => ih _ valid.2

theorem readFileFrom_confined (offset remaining : Nat) (buf : List UInt8)
    (valid : ∀ cluster ∈ clusters, fs.Valid cluster) :
    fs.Confined (fs.readFileFrom clusters offset remaining buf) device := by
  induction clusters generalizing offset remaining buf device with
  | nil => exact .pure _
  | cons cluster rest ih =>
      rw [List.forall_mem_cons] at valid
      rw [readFileFrom]
      split
      · exact .pure _
      · exact .bind (readCluster_confined consistent valid.1 _) fun _ _ _ => ih _ _ _ valid.2

theorem listChain_confined (valid : ∀ cluster ∈ clusters, fs.Valid cluster) :
    fs.Confined (fs.listChain clusters) device := by
  induction clusters generalizing device with
  | nil => exact .pure _
  | cons cluster rest ih =>
      rw [List.forall_mem_cons] at valid
      refine .bind (readCluster_confined consistent valid.1 _) fun buf _ _ => ?_
      simp only
      split
      · exact .pure _
      · exact .bind (ih valid.2) fun _ _ _ => .pure _

theorem allocFrom_confined (valid : ∀ cluster ∈ clusters, fs.Valid cluster) :
    fs.Confined (fs.allocFrom clusters) device := by
  induction clusters generalizing device with
  | nil => exact .fail _
  | cons cluster rest ih =>
      rw [List.forall_mem_cons] at valid
      refine .bind (readFatEntry_confined consistent valid.1) fun val _ _ => ?_
      split
      · exact .bind (writeCluster_confined consistent valid.1 _) fun _ _ _ => .pure _
      · exact ih valid.2

theorem allocCluster_confined : fs.Confined fs.allocCluster device := by
  rw [allocCluster]
  split
  · exact .fail _
  split
  · exact .panics
  · dsimp only
    split
    · exact .fail _
    · exact allocFrom_confined consistent candidates_valid

theorem extendClusters_confined (count : Nat) (clusters : List Nat) :
    fs.Confined (fs.extendClusters count clusters) device := by
  induction count generalizing clusters device with
  | zero => exact .pure _
  | succ count ih => exact .bind (allocCluster_confined consistent) fun _ _ _ => ih _

end Clusters

/-! The operations that follow a chain. -/

section Chains

variable {fs : Fat32Fs} (consistent : fs.Consistent) {device : Device} {start : Nat}
  (chained : fs.Confined (fs.readChain start) device)
  (valid : ∀ chain device', fs.readChain start device = .ok chain device' →
    ∀ cluster ∈ chain, fs.Valid cluster)

include consistent chained valid

theorem readFile_confined (size : Nat) (buf : List UInt8) :
    fs.Confined (fs.readFile start size buf) device :=
  .bind chained fun chain device' ran =>
    readFileFrom_confined consistent _ _ _ (valid chain device' ran)

theorem readDirEntries_confined : fs.Confined (fs.readDirEntries start) device :=
  .bind chained fun chain device' ran => listChain_confined consistent (valid chain device' ran)

theorem freeChain_confined : fs.Confined (fs.freeChain start) device :=
  .bind chained fun chain device' ran =>
    writeFatEntries_confined consistent _ (valid chain device' ran)

theorem writeFileData_confined (data : List UInt8) :
    fs.Confined (fs.writeFileData start data) device := by
  rw [writeFileData]
  split
  · exact .panics
  · refine .bind chained fun existing device' ran => ?_
    have held := valid existing device' ran
    refine .bind (extendClusters_confined consistent _ _) fun clusters _ extended => ?_
    have all := extendClusters_valid held extended
    refine .bind (writeParts_confined consistent _ _ all) fun _ _ _ => ?_
    refine .bind (linkClusters_confined consistent all) fun _ _ _ => ?_
    split
    · exact writeFatEntries_confined consistent _ fun cluster member =>
        held cluster (List.mem_of_mem_drop member)
    · exact .pure _

end Chains

end Fat32Fs

end ArcadiaOs.Fs
