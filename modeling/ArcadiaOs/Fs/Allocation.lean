import ArcadiaOs.Fs.Volume
import ArcadiaOs.Lib.LinkedTable

/-!
What the allocation-table operations do to the view of a volume: chains are read and
freed, free clusters found, clusters linked.
-/

namespace ArcadiaOs.Fs

open Lib

def outcome {ε α : Type} (result : Except ε α) (device : Device) :
    EStateM.Result (Halt ε) Device α :=
  match result with
  | .ok value => .ok value device
  | .error reason => .error (.error reason) device

/-- On every device that never fails and holds `volume`, the action has the result and leaves such
a device that holds `volume'`. -/
def Runs (fs : Fat32Fs) {ε α : Type} (action : Disk ε α) (volume : Volume) (result : Except ε α)
    (volume' : Volume) : Prop :=
  ∀ device, device.Healthy → fs.view device = volume →
    ∃ device', action device = outcome result device' ∧ device'.Healthy ∧ fs.view device' = volume'

namespace Runs

variable {fs : Fat32Fs} {ε ε' α β : Type} {volume volume' volume'' : Volume}

theorem pure (value : α) : Runs fs (Pure.pure value : Disk ε α) volume (.ok value) volume :=
  fun device healthy holds => ⟨device, rfl, healthy, holds⟩

theorem fail (reason : ε) : Runs fs (Disk.fail reason : Disk ε α) volume (.error reason) volume :=
  fun device healthy holds => ⟨device, rfl, healthy, holds⟩

theorem bind {action : Disk ε α} {next : α → Disk ε β} {value : α} {result : Except ε β}
    (first : Runs fs action volume (.ok value) volume')
    (second : Runs fs (next value) volume' result volume'') :
    Runs fs (action >>= next) volume result volume'' := by
  intro device healthy holds
  obtain ⟨middle, ran, middleHealthy, middleHolds⟩ := first device healthy holds
  obtain ⟨device', ranNext, healthy', holds'⟩ := second middle middleHealthy middleHolds
  exact ⟨device', by rw [Disk.bind_ok ran, ranNext], healthy', holds'⟩

theorem bind_error {action : Disk ε α} {reason : ε}
    (first : Runs fs action volume (.error reason) volume') (next : α → Disk ε β) :
    Runs fs (action >>= next) volume (.error reason) volume' := by
  intro device healthy holds
  obtain ⟨device', ran, healthy', holds'⟩ := first device healthy holds
  exact ⟨device', by rw [Disk.bind_error ran]; rfl, healthy', holds'⟩

theorem mapErr {action : Disk ε α} {value : α} (ran : Runs fs action volume (.ok value) volume')
    (convert : ε → ε') : Runs fs (action.mapErr convert) volume (.ok value) volume' := by
  intro device healthy holds
  obtain ⟨device', ran, healthy', holds'⟩ := ran device healthy holds
  exact ⟨device', Disk.mapErr_ok ran convert, healthy', holds'⟩

theorem mapErr_error {action : Disk ε α} {reason : ε}
    (ran : Runs fs action volume (.error reason) volume') (convert : ε → ε') :
    Runs fs (action.mapErr convert) volume (.error (convert reason)) volume' := by
  intro device healthy holds
  obtain ⟨device', ran, healthy', holds'⟩ := ran device healthy holds
  exact ⟨device', Disk.mapErr_error ran convert, healthy', holds'⟩

theorem answer_eq {action : Disk ε α} {result : Except ε α}
    (runs : Runs fs action volume result volume') {device : Device} (healthy : device.Healthy)
    (holds : fs.view device = volume) : action.answer device = result.mapError Halt.error := by
  obtain ⟨device', ran, _⟩ := runs device healthy holds
  rw [Disk.answer, ran]
  cases result with
  | ok value => rfl
  | error reason => rfl

theorem answer {action : Disk ε α} {value : α}
    (runs : Runs fs action volume (.ok value) volume') {device : Device} (healthy : device.Healthy)
    (holds : fs.view device = volume) : action.answer device = .ok value :=
  runs.answer_eq healthy holds

theorem answer_iff {action : Disk ε α} {result : Except ε α}
    (runs : Runs fs action volume result volume') {device : Device} (healthy : device.Healthy)
    (holds : fs.view device = volume) {value : α} :
    action.answer device = .ok value ↔ result = .ok value := by
  rw [runs.answer_eq healthy holds]
  cases result with
  | ok other => simp [Except.mapError]
  | error reason => simp [Except.mapError]

end Runs

/-- Every cluster has the size of a cluster, as in the view of any device. -/
def Volume.Shaped (fs : Fat32Fs) (volume : Volume) : Prop :=
  ∀ cluster, (volume.data cluster).length = fs.bpb.clusterSizeBytes

theorem Volume.Shaped.setFat {fs : Fat32Fs} {volume : Volume} (shaped : volume.Shaped fs)
    (cluster value : Nat) : (volume.setFat cluster value).Shaped fs := shaped

theorem Volume.Shaped.setData {fs : Fat32Fs} {volume : Volume} (shaped : volume.Shaped fs)
    (cluster : Nat) {bytes : List UInt8} (long : bytes.length = fs.bpb.clusterSizeBytes) :
    (volume.setData cluster bytes).Shaped fs := by
  intro other
  by_cases same : other = cluster
  · rw [same, volume.setData_data_same, long]
  · rw [volume.setData_data_other bytes same, shaped other]

theorem Runs.of_shaped {fs : Fat32Fs} (geometry : fs.Geometry) {ε α : Type} {action : Disk ε α}
    {volume volume' : Volume} {result : Except ε α}
    (ran : volume.Shaped fs → Runs fs action volume result volume') :
    Runs fs action volume result volume' := by
  intro device healthy holds
  refine ran ?_ device healthy holds
  intro cluster
  rw [← holds]
  exact Fat32Fs.length_view_data geometry device cluster

def EndOfChain (value : Nat) : Prop := fat32Eoc ≤ value

/-- The clusters of the chain from `start`: each valid, none twice, linked in the table up to an
end mark.  Starts below 2 stand for no chain. -/
structure Volume.Chain (fs : Fat32Fs) (volume : Volume) (start : Nat) (clusters : List Nat) :
    Prop where
  none : start < 2 → clusters = []
  head : 2 ≤ start → clusters.head? = some start
  valid : ∀ cluster ∈ clusters, fs.Valid cluster
  distinct : clusters.Nodup
  linked : Linked volume.fat id EndOfChain clusters

theorem Volume.chain_single {fs : Fat32Fs} {volume : Volume} {cluster : Nat}
    (valid : fs.Valid cluster) (ended : EndOfChain (volume.fat cluster)) :
    volume.Chain fs cluster [cluster] := by
  have present := valid.1
  refine ⟨fun absent => ?_, fun _ => rfl, fun other member => ?_, List.nodup_singleton _, ?_⟩
  · omega
  · exact List.mem_singleton.mp member ▸ valid
  · rw [linked_singleton]
    exact ended

/-- The clusters `read_chain` collects, with the turns it has left. -/
def Volume.chainFrom (volume : Volume) : Nat → List Nat → Nat → List Nat
  | 0, chain, _ => chain
  | turns + 1, chain, current =>
      if current < 2 then chain
      else
        let next := volume.fat current
        if next ≥ fat32Eoc ∨ next = fat32Bad ∨ next = 0 then chain ++ [current]
        else if next < 2 ∨ next = current then chain ++ [current]
        else if next ∈ chain ++ [current] then chain ++ [current]
        else volume.chainFrom turns (chain ++ [current]) next

def Volume.chainOf (volume : Volume) (start : Nat) : List Nat :=
  volume.chainFrom (Fat32Fs.maxChain + 1) [] start

/-- `read_chain` meets only clusters of the volume. -/
def Volume.Visits (fs : Fat32Fs) (volume : Volume) (start : Nat) : Prop :=
  ∀ cluster ∈ volume.chainOf start, fs.Valid cluster

namespace Fat32Fs

def visible (clusters : List Nat) : List Nat := clusters.take (maxChain + 1)

variable {fs : Fat32Fs} {volume : Volume}

section Primitives

variable (geometry : fs.Geometry) {cluster : Nat} (valid : fs.Valid cluster)
include geometry valid

theorem readFatEntry_runs :
    Runs fs (fs.readFatEntry cluster) volume (.ok (volume.fat cluster)) volume := by
  rintro device healthy rfl
  exact ⟨device, readFatEntry_ok geometry healthy valid, healthy, rfl⟩

theorem writeFatEntry_runs {value : Nat} (bound : value < 2 ^ 28) :
    Runs fs (fs.writeFatEntry cluster value) volume (.ok ()) (volume.setFat cluster value) := by
  rintro device healthy rfl
  obtain ⟨device', wrote, healthy', holds'⟩ := writeFatEntry_ok geometry healthy valid value
  rw [Nat.mod_eq_of_lt bound] at holds'
  exact ⟨device', wrote, healthy', holds'⟩

theorem readCluster_runs : Runs fs (fs.readCluster cluster fs.clusterZeros) volume
    (.ok (volume.data cluster)) volume := by
  rintro device healthy rfl
  exact ⟨device, readCluster_ok geometry healthy valid, healthy, rfl⟩

theorem writeCluster_runs {buf : List UInt8} (long : buf.length = fs.bpb.clusterSizeBytes) :
    Runs fs (fs.writeCluster cluster buf) volume (.ok ()) (volume.setData cluster buf) := by
  rintro device healthy rfl
  exact writeCluster_ok geometry healthy valid long

end Primitives

theorem Geometry.valid_lt (geometry : fs.Geometry) {cluster : Nat} (valid : fs.Valid cluster) :
    cluster < fat32Bad := by
  have := geometry.numbered
  have := valid.2
  omega

theorem Geometry.valid_bound (geometry : fs.Geometry) {cluster : Nat} (valid : fs.Valid cluster) :
    cluster < 2 ^ 28 := Nat.lt_trans (geometry.valid_lt valid) (by decide)

theorem Geometry.valid_not_end (geometry : fs.Geometry) {cluster : Nat}
    (valid : fs.Valid cluster) : ¬EndOfChain cluster := by
  have := geometry.valid_lt valid
  simp only [EndOfChain, fat32Eoc, fat32Bad] at *
  omega

theorem chainFrom_eq (geometry : fs.Geometry) (turns : Nat) (front rest : List Nat)
    (current : Nat) (valid : ∀ cluster ∈ current :: rest, fs.Valid cluster)
    (distinct : (front ++ current :: rest).Nodup)
    (linked : Linked volume.fat id EndOfChain (current :: rest)) :
    volume.chainFrom turns front current = front ++ (current :: rest).take turns := by
  induction turns generalizing front rest current with
  | zero => rw [List.take_zero, List.append_nil]; rfl
  | succ turns ih =>
      have first := (valid current List.mem_cons_self).1
      have points := linked.1
      rw [Volume.chainFrom, if_neg (by omega)]
      cases rest with
      | nil =>
          simp only [Points, EndOfChain] at points
          rw [if_pos (Or.inl points), List.take_succ_cons, List.take_nil]
      | cons next others =>
          simp only [Points, id] at points
          have nextValid := valid next (List.mem_cons_of_mem _ List.mem_cons_self)
          have bound := geometry.valid_lt nextValid
          have second := nextValid.1
          have regular : front ++ current :: next :: others =
              (front ++ [current]) ++ next :: others := by simp
          rw [regular] at distinct
          have fresh : next ∉ front ++ [current] := fun member =>
            (List.disjoint_of_nodup_append distinct) member List.mem_cons_self
          have apart : next ≠ current := by
            rintro rfl
            exact fresh (by simp)
          have ongoing : ¬(next ≥ fat32Eoc ∨ next = fat32Bad ∨ next = 0) := by
            simp only [fat32Eoc, fat32Bad] at bound ⊢
            omega
          simp only [points]
          rw [if_neg ongoing, if_neg (by omega), if_neg fresh]
          rw [ih (front ++ [current]) others next
            (fun cluster member => valid cluster (List.mem_cons_of_mem _ member)) distinct linked.2]
          simp

theorem Geometry.chainOf_eq (geometry : fs.Geometry) {start : Nat} {clusters : List Nat}
    (chain : volume.Chain fs start clusters) : volume.chainOf start = visible clusters := by
  by_cases empty : start < 2
  · rw [chain.none empty, Volume.chainOf, Volume.chainFrom, if_pos empty]
    rfl
  · cases clusters with
    | nil => exact absurd (chain.head (by omega)) nofun
    | cons first rest =>
        obtain rfl : first = start := Option.some.inj (chain.head (by omega))
        exact chainFrom_eq geometry (maxChain + 1) [] rest first chain.valid chain.distinct
          chain.linked

theorem chainFrom_extends (turns : Nat) (front : List Nat) (current : Nat) :
    ∃ later, volume.chainFrom turns front current = front ++ later := by
  induction turns generalizing front current with
  | zero => exact ⟨[], (List.append_nil _).symm⟩
  | succ turns ih =>
      simp only [Volume.chainFrom]
      split
      · exact ⟨[], (List.append_nil _).symm⟩
      split
      · exact ⟨_, rfl⟩
      split
      · exact ⟨_, rfl⟩
      split
      · exact ⟨_, rfl⟩
      · obtain ⟨later, extended⟩ := ih (front ++ [current]) (volume.fat current)
        exact ⟨[current] ++ later, by rw [extended, List.append_assoc]⟩

theorem readChainFrom_runs (geometry : fs.Geometry) (turns : Nat) (front : List Nat)
    (current : Nat)
    (valid : ∀ cluster ∈ volume.chainFrom turns front current, fs.Valid cluster) :
    Runs fs (fs.readChainFrom turns front current) volume
      (.ok (volume.chainFrom turns front current)) volume := by
  induction turns generalizing front current with
  | zero => exact Runs.pure _
  | succ turns ih =>
      rw [readChainFrom]
      by_cases absent : current < 2
      · rw [Volume.chainFrom, if_pos absent, if_pos absent]
        exact Runs.pure _
      have currentValid : fs.Valid current := by
        apply valid
        simp only [Volume.chainFrom, if_neg absent]
        split
        · simp
        split
        · simp
        split
        · simp
        · obtain ⟨later, extended⟩ :=
            chainFrom_extends turns (front ++ [current]) (volume.fat current)
          rw [extended]
          simp
      rw [Volume.chainFrom, if_neg absent] at valid ⊢
      rw [if_neg absent]
      refine Runs.bind (readFatEntry_runs geometry currentValid) ?_
      simp only at valid ⊢
      split
      · exact Runs.pure _
      rename_i ongoing
      rw [if_neg ongoing] at valid
      split
      · exact Runs.pure _
      rename_i regular
      rw [if_neg regular] at valid
      split
      · exact Runs.pure _
      rename_i fresh
      rw [if_neg fresh] at valid
      exact ih _ _ valid

theorem Geometry.chain_visits (geometry : fs.Geometry) {start : Nat} {clusters : List Nat}
    (chain : volume.Chain fs start clusters) : volume.Visits fs start := by
  intro cluster member
  rw [geometry.chainOf_eq chain] at member
  exact chain.valid cluster (List.mem_of_mem_take member)

theorem readChain_visits (geometry : fs.Geometry) {start : Nat} (visits : volume.Visits fs start) :
    Runs fs (fs.readChain start) volume (.ok (volume.chainOf start)) volume :=
  readChainFrom_runs geometry _ _ _ visits

theorem readChain_runs (geometry : fs.Geometry) {start : Nat} {clusters : List Nat}
    (chain : volume.Chain fs start clusters) :
    Runs fs (fs.readChain start) volume (.ok (visible clusters)) volume := by
  rw [← geometry.chainOf_eq chain]
  exact readChain_visits geometry (geometry.chain_visits chain)

end Fat32Fs

namespace Volume

def release (volume : Volume) (clusters : List Nat) : Volume :=
  { volume with fat := fun cluster => if cluster ∈ clusters then 0 else volume.fat cluster }

def linkUp (volume : Volume) (clusters : List Nat) : Volume :=
  { volume with fat := thread id fat32Eoc clusters volume.fat }

def firstFree (fs : Fat32Fs) (volume : Volume) : Option Nat :=
  if fs.bpb.totalClusters < 2 then Option.none
  else (List.range' 2 fs.bpb.totalClusters).find? fun cluster => volume.fat cluster = 0

theorem firstFree_some {fs : Fat32Fs} {volume : Volume} {cluster : Nat}
    (found : volume.firstFree fs = some cluster) :
    fs.Valid cluster ∧ volume.fat cluster = 0 := by
  rw [firstFree] at found
  split at found
  · cases found
  · have member := List.mem_of_find?_eq_some found
    have free := List.find?_some found
    rw [List.mem_range'_1] at member
    exact ⟨⟨member.1, by omega⟩, of_decide_eq_true free⟩

theorem firstFree_none {fs : Fat32Fs} {volume : Volume} (full : volume.firstFree fs = Option.none)
    (enough : 2 ≤ fs.bpb.totalClusters) {cluster : Nat} (valid : fs.Valid cluster) :
    volume.fat cluster ≠ 0 := by
  rw [firstFree, if_neg (by omega), List.find?_eq_none] at full
  have member : cluster ∈ List.range' 2 fs.bpb.totalClusters := by
    rw [List.mem_range'_1]
    exact ⟨valid.1, by have := valid.2; omega⟩
  intro free
  exact full cluster member (decide_eq_true free)

theorem firstFree_congr {fs : Fat32Fs} {volume volume' : Volume}
    (same : volume'.fat = volume.fat) : volume'.firstFree fs = volume.firstFree fs := by
  simp only [firstFree, same]

end Volume

namespace Fat32Fs

variable {fs : Fat32Fs} {volume : Volume}

theorem writeFatEntries_runs (geometry : fs.Geometry) {clusters : List Nat}
    (valid : ∀ cluster ∈ clusters, fs.Valid cluster) :
    Runs fs (fs.writeFatEntries fat32Free clusters) volume (.ok ()) (volume.release clusters) := by
  induction clusters generalizing volume with
  | nil =>
      have same : volume.release [] = volume := by simp [Volume.release]
      rw [same]
      exact Runs.pure _
  | cons cluster rest ih =>
      have step : (volume.setFat cluster 0).release rest = volume.release (cluster :: rest) := by
        simp only [Volume.release, Volume.setFat, Volume.mk.injEq, and_true]
        funext other
        by_cases same : other = cluster
        · simp [same]
        · simp [same]
      rw [← step]
      exact Runs.bind
        (writeFatEntry_runs geometry (valid cluster List.mem_cons_self) (show 0 < 2 ^ 28 by decide))
        (ih fun other member => valid other (List.mem_cons_of_mem _ member))

theorem freeChain_runs (geometry : fs.Geometry) {start : Nat} {clusters : List Nat}
    (chain : volume.Chain fs start clusters) :
    Runs fs (fs.freeChain start) volume (.ok ()) (volume.release (visible clusters)) :=
  Runs.bind (readChain_runs geometry chain) <| writeFatEntries_runs geometry fun cluster member =>
    chain.valid cluster (List.mem_of_mem_take member)

theorem linkClusters_runs (geometry : fs.Geometry) {clusters : List Nat}
    (valid : ∀ cluster ∈ clusters, fs.Valid cluster) :
    Runs fs (fs.linkClusters clusters) volume (.ok ()) (volume.linkUp clusters) := by
  induction clusters generalizing volume with
  | nil => exact Runs.pure _
  | cons cluster rest ih =>
      have bound : rest.headD fat32Eoc < 2 ^ 28 := by
        cases rest with
        | nil => decide
        | cons next _ =>
            exact geometry.valid_bound (valid next (List.mem_cons_of_mem _ List.mem_cons_self))
      have step : (volume.setFat cluster (rest.headD fat32Eoc)).linkUp rest =
          volume.linkUp (cluster :: rest) := by
        cases rest <;> rfl
      rw [← step]
      exact Runs.bind (writeFatEntry_runs geometry (valid cluster List.mem_cons_self) bound)
        (ih fun other member => valid other (List.mem_cons_of_mem _ member))

def Refuses (fs : Fat32Fs) {α : Type} (action : Disk String α) (volume : Volume) : Prop :=
  ∃ reason, Runs fs action volume (.error reason) volume

theorem allocFrom_runs (geometry : fs.Geometry) {clusters : List Nat}
    (valid : ∀ cluster ∈ clusters, fs.Valid cluster) :
    match clusters.find? fun cluster => volume.fat cluster = 0 with
    | some cluster =>
        Runs fs (fs.allocFrom clusters) volume (.ok cluster) (volume.setData cluster fs.clusterZeros)
    | none => fs.Refuses (fs.allocFrom clusters) volume := by
  induction clusters with
  | nil => exact ⟨_, Runs.fail _⟩
  | cons cluster rest ih =>
      have clusterValid := valid cluster List.mem_cons_self
      by_cases free : volume.fat cluster = 0
      · rw [List.find?_cons_of_pos (by exact decide_eq_true free)]
        refine Runs.bind (readFatEntry_runs geometry clusterValid) ?_
        rw [if_pos (show volume.fat cluster = fat32Free from free)]
        exact Runs.bind (writeCluster_runs geometry clusterValid (length_zeros _)) (Runs.pure _)
      · rw [List.find?_cons_of_neg (by simpa using free)]
        have later := ih fun other member => valid other (List.mem_cons_of_mem _ member)
        have step : ∀ {result volume'}, Runs fs (fs.allocFrom rest) volume result volume' →
            Runs fs (fs.allocFrom (cluster :: rest)) volume result volume' := by
          intro result volume' ran
          refine Runs.bind (readFatEntry_runs geometry clusterValid) ?_
          rw [if_neg (show ¬volume.fat cluster = fat32Free from free)]
          exact ran
        split at later
        · exact step later
        · obtain ⟨reason, ran⟩ := later
          exact ⟨reason, step ran⟩

theorem allocCluster_runs (geometry : fs.Geometry) (volume : Volume) :
    match volume.firstFree fs with
    | some cluster =>
        Runs fs fs.allocCluster volume (.ok cluster) (volume.setData cluster fs.clusterZeros)
    | none => fs.Refuses fs.allocCluster volume := by
  have sectors : fs.bpb.sectorsPerCluster ≠ 0 := by
    intro zero
    have := geometry.clusterSectors
    rw [zero] at this
    exact absurd this (by decide)
  have numbered := geometry.numbered
  have range : wrap32 (fs.bpb.totalClusters + 2) - 2 = fs.bpb.totalClusters := by
    rw [wrap32, Nat.mod_eq_of_lt (by rw [fat32Bad] at numbered; omega)]
    omega
  simp only [allocCluster, Volume.firstFree, if_neg sectors, range]
  by_cases none : fs.bpb.dataSectors = 0
  · have few : fs.bpb.totalClusters < 2 := by
      rw [Fat32Bpb.totalClusters, none, Nat.zero_div]
      omega
    simp only [if_pos none, if_pos few]
    exact ⟨_, Runs.fail _⟩
  · simp only [if_neg none]
    by_cases few : fs.bpb.totalClusters < 2
    · simp only [if_pos few]
      exact ⟨_, Runs.fail _⟩
    · simp only [if_neg few]
      apply allocFrom_runs geometry
      intro cluster member
      rw [List.mem_range'_1] at member
      exact ⟨member.1, by omega⟩

theorem allocCluster_some (geometry : fs.Geometry) {cluster : Nat}
    (found : volume.firstFree fs = some cluster) :
    Runs fs fs.allocCluster volume (.ok cluster) (volume.setData cluster fs.clusterZeros) := by
  have ran := allocCluster_runs geometry volume
  rw [found] at ran
  exact ran

theorem allocCluster_none (geometry : fs.Geometry) (full : volume.firstFree fs = none) :
    fs.Refuses fs.allocCluster volume := by
  have ran := allocCluster_runs geometry volume
  rw [full] at ran
  exact ran

end Fat32Fs

end ArcadiaOs.Fs
