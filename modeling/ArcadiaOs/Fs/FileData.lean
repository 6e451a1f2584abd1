import ArcadiaOs.Fs.Allocation

/-!
Reading and writing the bytes of a chain.  `alloc_cluster` does not mark what it
returns, so `write_file_data` extends a chain by one cluster however many it asks for,
and the last part of the data is what that cluster ends up with.
-/

namespace ArcadiaOs.Fs

open Lib

namespace Volume

def contents (volume : Volume) (clusters : List Nat) : List UInt8 := clusters.flatMap volume.data

theorem length_contents {fs : Fat32Fs} {volume : Volume} (shaped : volume.Shaped fs)
    (clusters : List Nat) :
    (volume.contents clusters).length = clusters.length * fs.bpb.clusterSizeBytes := by
  induction clusters with
  | nil => simp [contents]
  | cons cluster rest ih =>
      simp only [contents, List.flatMap_cons, List.length_append, List.length_cons] at ih ⊢
      rw [ih, shaped cluster, Nat.add_mul, Nat.one_mul, Nat.add_comm]

theorem contents_congr {volume volume' : Volume} {clusters : List Nat}
    (same : ∀ cluster ∈ clusters, volume'.data cluster = volume.data cluster) :
    volume'.contents clusters = volume.contents clusters := by
  simp only [contents, List.flatMap]
  congr 1
  exact List.map_congr_left same

end Volume

namespace Fat32Fs

variable {fs : Fat32Fs} {volume : Volume}

theorem readFileFrom_counts (geometry : fs.Geometry) (shaped : volume.Shaped fs)
    {clusters : List Nat} (valid : ∀ cluster ∈ clusters, fs.Valid cluster) (offset remaining : Nat)
    (buf : List UInt8) (inside : offset ≤ buf.length) :
    Runs fs (fs.readFileFrom clusters offset remaining buf) volume
      (.ok (offset + min (min remaining (buf.length - offset))
          (clusters.length * fs.bpb.clusterSizeBytes),
        splice buf offset
          ((volume.contents clusters).take (min remaining (buf.length - offset))))) volume := by
  induction clusters generalizing offset remaining buf with
  | nil =>
      simp only [Volume.contents, List.flatMap_nil, List.take_nil, splice_nil, List.length_nil,
        Nat.zero_mul, Nat.min_zero, Nat.add_zero]
      exact Runs.pure _
  | cons cluster rest ih =>
      by_cases done : remaining = 0 ∨ offset ≥ buf.length
      · have nothing : min remaining (buf.length - offset) = 0 := by omega
        rw [nothing, List.take_zero, splice_nil, Nat.zero_min, Nat.add_zero, readFileFrom, if_pos done]
        exact Runs.pure _
      · have size := shaped cluster
        have copied : min (min remaining fs.bpb.clusterSizeBytes) (buf.length - offset) =
            min (min remaining (buf.length - offset)) (volume.data cluster).length := by omega
        have part : (volume.data cluster).take (min (min remaining (buf.length - offset))
            (volume.data cluster).length) =
              (volume.data cluster).take (min remaining (buf.length - offset)) :=
          List.take_eq_take_min.symm
        have grown : (splice buf offset ((volume.data cluster).take
            (min remaining (buf.length - offset)))).length = buf.length :=
          length_splice (by rw [List.length_take]; omega)
        have ran := ih (fun other member => valid other (List.mem_cons_of_mem _ member))
          (offset + min (min remaining (buf.length - offset)) (volume.data cluster).length)
          (remaining - min (min remaining (buf.length - offset)) (volume.data cluster).length)
          (splice buf offset ((volume.data cluster).take (min remaining (buf.length - offset))))
          (by omega)
        rw [readFileFrom, if_neg done]
        refine Runs.bind (readCluster_runs geometry (valid cluster List.mem_cons_self)) ?_
        simp only [copied, part]
        have left : min (remaining - min (min remaining (buf.length - offset))
              (volume.data cluster).length) (buf.length - (offset + min (min remaining
                (buf.length - offset)) (volume.data cluster).length)) =
            min remaining (buf.length - offset) - (volume.data cluster).length := by omega
        have counted : offset + min (min remaining (buf.length - offset)) (volume.data cluster).length +
            min (min remaining (buf.length - offset) - (volume.data cluster).length)
              (rest.length * fs.bpb.clusterSizeBytes) =
            offset + min (min remaining (buf.length - offset))
              ((cluster :: rest).length * fs.bpb.clusterSizeBytes) := by
          rw [List.length_cons, Nat.add_mul, Nat.one_mul]
          omega
        rw [grown, left, splice_parts (by omega), counted] at ran
        exact ran

theorem readFile_visits (geometry : fs.Geometry) (shaped : volume.Shaped fs) {start : Nat}
    (visits : volume.Visits fs start) (size : Nat) (buf : List UInt8) :
    Runs fs (fs.readFile start size buf) volume
      (.ok (min (min size buf.length) ((volume.chainOf start).length * fs.bpb.clusterSizeBytes),
        splice buf 0 ((volume.contents (volume.chainOf start)).take (min size buf.length))))
      volume := by
  have ran := readFileFrom_counts geometry shaped visits 0 size buf (Nat.zero_le _)
  rw [Nat.zero_add] at ran
  exact Runs.bind (readChain_visits geometry visits) ran

theorem readFile_counts (geometry : fs.Geometry) (shaped : volume.Shaped fs) {start : Nat}
    {clusters : List Nat} (chain : volume.Chain fs start clusters) (size : Nat) (buf : List UInt8) :
    Runs fs (fs.readFile start size buf) volume
      (.ok (min (min size buf.length) ((visible clusters).length * fs.bpb.clusterSizeBytes),
        splice buf 0 ((volume.contents (visible clusters)).take (min size buf.length)))) volume := by
  rw [← geometry.chainOf_eq chain]
  exact readFile_visits geometry shaped (geometry.chain_visits chain) size buf

theorem readFile_runs (geometry : fs.Geometry) (shaped : volume.Shaped fs) {start : Nat}
    {clusters : List Nat} (chain : volume.Chain fs start clusters) (size : Nat) (buf : List UInt8) :
    ∃ count, Runs fs (fs.readFile start size buf) volume
      (.ok (count, splice buf 0
        ((volume.contents (visible clusters)).take (min size buf.length)))) volume :=
  ⟨_, readFile_counts geometry shaped chain size buf⟩

def fillData (fs : Fat32Fs) (data : List UInt8) :
    List Nat → Nat → (Nat → List UInt8) → Nat → List UInt8
  | [], _, held => held
  | cluster :: rest, index, held =>
      fs.fillData data rest (index + 1) (Function.update held cluster (fs.clusterPart data index))

section Fill

variable {data : List UInt8} {held : Nat → List UInt8}

theorem fillData_congr {held' : Nat → List UInt8} {other : Nat} (same : held' other = held other)
    (clusters : List Nat) (index : Nat) :
    fs.fillData data clusters index held' other = fs.fillData data clusters index held other := by
  induction clusters generalizing index held held' with
  | nil => exact same
  | cons cluster rest ih =>
      apply ih
      by_cases here : other = cluster
      · rw [here, Function.update_self, Function.update_self]
      · rw [Function.update_of_ne here, Function.update_of_ne here, same]

theorem fillData_other {clusters : List Nat} {other : Nat} (apart : other ∉ clusters)
    (index : Nat) : fs.fillData data clusters index held other = held other := by
  induction clusters generalizing index held with
  | nil => rfl
  | cons cluster rest ih =>
      rw [List.mem_cons, not_or] at apart
      rw [fillData, ih apart.2, Function.update_of_ne apart.1]

theorem fillData_append (front back : List Nat) (index : Nat) (held : Nat → List UInt8) :
    fs.fillData data (front ++ back) index held =
      fs.fillData data back (index + front.length) (fs.fillData data front index held) := by
  induction front generalizing index held with
  | nil => rfl
  | cons cluster rest ih =>
      rw [List.cons_append, fillData, ih, fillData, List.length_cons]
      congr 1
      omega

theorem fillData_repeated (cluster count index : Nat) (held : Nat → List UInt8) :
    fs.fillData data (List.replicate (count + 1) cluster) index held =
      Function.update held cluster (fs.clusterPart data (index + count)) := by
  induction count generalizing index held with
  | zero => rfl
  | succ count ih =>
      rw [List.replicate_succ, fillData, ih, Function.update_idem]
      congr 2
      omega

theorem length_clusterPart (fs : Fat32Fs) (data : List UInt8) (index : Nat) :
    (fs.clusterPart data index).length = fs.bpb.clusterSizeBytes := by
  have short : (slice data (index * fs.bpb.clusterSizeBytes) fs.bpb.clusterSizeBytes).length ≤
      fs.bpb.clusterSizeBytes := by
    rw [slice, List.length_take]
    omega
  rw [clusterPart, clusterZeros, length_splice (by rw [length_zeros]; omega), length_zeros]

theorem writeParts_runs (geometry : fs.Geometry) {clusters : List Nat}
    (valid : ∀ cluster ∈ clusters, fs.Valid cluster) (index : Nat) (volume : Volume) :
    Runs fs (fs.writeParts data clusters index) volume (.ok ())
      { volume with data := fs.fillData data clusters index volume.data } := by
  induction clusters generalizing index volume with
  | nil => exact Runs.pure _
  | cons cluster rest ih =>
      exact Runs.bind (writeCluster_runs geometry (valid cluster List.mem_cons_self)
        (length_clusterPart fs data index))
        (ih (fun other member => valid other (List.mem_cons_of_mem _ member)) (index + 1) _)

end Fill

/-- `alloc_cluster` marks nothing, so each call of the extension gives the same cluster. -/
theorem extendClusters_runs (geometry : fs.Geometry) {cluster : Nat}
    (found : volume.firstFree fs = some cluster) (count : Nat) (clusters : List Nat) :
    Runs fs (fs.extendClusters (count + 1) clusters) volume
      (.ok (clusters ++ List.replicate (count + 1) cluster))
      (volume.setData cluster fs.clusterZeros) := by
  induction count generalizing clusters volume with
  | zero => exact Runs.bind (allocCluster_some geometry found) (Runs.pure _)
  | succ count ih =>
      have again : (volume.setData cluster fs.clusterZeros).firstFree fs = some cluster := by
        rw [Volume.firstFree_congr (volume.setData_fat cluster fs.clusterZeros), found]
      have later := ih again (clusters ++ [cluster])
      have same : (volume.setData cluster fs.clusterZeros).setData cluster fs.clusterZeros =
          volume.setData cluster fs.clusterZeros := by
        simp only [Volume.setData, Function.update_idem]
      have grown : clusters ++ [cluster] ++ List.replicate (count + 1) cluster =
          clusters ++ List.replicate (count + 1 + 1) cluster := by
        rw [List.append_assoc, List.singleton_append, ← List.replicate_succ]
      rw [same, grown] at later
      exact Runs.bind (allocCluster_some geometry found) later

end Fat32Fs

namespace Volume

/-- What `write_file_data` appends to the chain it reads: nothing when the chain is long enough,
else the first free cluster. -/
def Extension (fs : Fat32Fs) (volume : Volume) (clusters : List Nat) (data : List UInt8)
    (tail : List Nat) : Prop :=
  fs.clustersNeeded data ≤ clusters.length ∧ tail = [] ∨
  clusters.length < fs.clustersNeeded data ∧
    ∃ cluster, volume.firstFree fs = some cluster ∧ tail = [cluster]

/-- The data stored in a chain and the cluster appended to it, which gets the last part. -/
def store (fs : Fat32Fs) (volume : Volume) (clusters tail : List Nat) (data : List UInt8) :
    Volume where
  fat := thread id fat32Eoc (clusters ++ tail) volume.fat
  data cluster :=
    if cluster ∈ tail then fs.clusterPart data (fs.clustersNeeded data - 1)
    else fs.fillData data clusters 0 volume.data cluster

theorem store_alone (fs : Fat32Fs) (volume : Volume) (clusters : List Nat) (data : List UInt8) :
    volume.store fs clusters [] data =
      ⟨thread id fat32Eoc clusters volume.fat, fs.fillData data clusters 0 volume.data⟩ := by
  simp only [store, List.append_nil, List.not_mem_nil, if_false]

variable {fs : Fat32Fs} {volume : Volume}

theorem linked_not_free {clusters : List Nat} (valid : ∀ cluster ∈ clusters, fs.Valid cluster)
    (linked : Linked volume.fat id EndOfChain clusters) {cluster : Nat}
    (member : cluster ∈ clusters) : volume.fat cluster ≠ 0 := by
  induction clusters with
  | nil => cases member
  | cons first rest ih =>
      rcases List.mem_cons.mp member with rfl | later
      · have points := linked.1
        cases rest with
        | nil =>
            simp only [Points, EndOfChain, fat32Eoc] at points
            omega
        | cons next _ =>
            simp only [Points, id] at points
            have := (valid next (by simp)).1
            omega
      · exact ih (fun other found => valid other (List.mem_cons_of_mem _ found)) linked.2 later

namespace Chain

variable {start : Nat} {clusters : List Nat}

theorem not_free (chain : volume.Chain fs start clusters) {cluster : Nat}
    (member : cluster ∈ clusters) : volume.fat cluster ≠ 0 :=
  linked_not_free chain.valid chain.linked member

theorem mem_visible {cluster : Nat} (member : cluster ∈ Fat32Fs.visible clusters) :
    cluster ∈ clusters := List.mem_of_mem_take member

theorem visible_valid (chain : volume.Chain fs start clusters) :
    ∀ cluster ∈ Fat32Fs.visible clusters, fs.Valid cluster :=
  fun cluster member => chain.valid cluster (mem_visible member)

theorem visible_distinct (chain : volume.Chain fs start clusters) :
    (Fat32Fs.visible clusters).Nodup := chain.distinct.sublist (List.take_sublist _ _)

theorem congr {volume' : Volume} (chain : volume.Chain fs start clusters)
    (same : ∀ cluster ∈ clusters, volume'.fat cluster = volume.fat cluster) :
    volume'.Chain fs start clusters :=
  { chain with linked := linked_congr same chain.linked }

end Chain

theorem Extension.fresh {clusters tail : List Nat} {data : List UInt8}
    (extension : volume.Extension fs clusters data tail) {cluster : Nat} (member : cluster ∈ tail) :
    fs.Valid cluster ∧ volume.fat cluster = 0 := by
  rcases extension with ⟨_, rfl⟩ | ⟨_, free, found, rfl⟩
  · cases member
  · rw [List.mem_singleton] at member
    exact member ▸ firstFree_some found

theorem Extension.distinct {clusters tail : List Nat} {data : List UInt8}
    (extension : volume.Extension fs clusters data tail) (distinct : clusters.Nodup)
    (used : ∀ cluster ∈ clusters, volume.fat cluster ≠ 0) : (clusters ++ tail).Nodup := by
  rw [List.nodup_append]
  refine ⟨distinct, ?_, ?_⟩
  · rcases extension with ⟨_, rfl⟩ | ⟨_, _, _, rfl⟩
    · exact List.nodup_nil
    · exact List.nodup_singleton _
  · rintro cluster member other memberTail rfl
    exact used cluster member (extension.fresh memberTail).2

theorem store_fat_other {clusters tail : List Nat} {data : List UInt8} {other : Nat}
    (apart : other ∉ clusters ++ tail) :
    (volume.store fs clusters tail data).fat other = volume.fat other := thread_other apart _

theorem store_data_other {clusters tail : List Nat} {data : List UInt8} {other : Nat}
    (apart : other ∉ clusters ++ tail) :
    (volume.store fs clusters tail data).data other = volume.data other := by
  rw [List.mem_append, not_or] at apart
  simp only [store, if_neg apart.2]
  exact Fat32Fs.fillData_other apart.1 0

theorem store_shaped {clusters tail : List Nat} {data : List UInt8} (shaped : volume.Shaped fs) :
    (volume.store fs clusters tail data).Shaped fs := by
  intro cluster
  simp only [store]
  split
  · exact Fat32Fs.length_clusterPart fs data _
  · generalize 0 = index
    generalize heldEq : volume.data = held
    have long : (held cluster).length = fs.bpb.clusterSizeBytes := heldEq ▸ shaped cluster
    clear heldEq
    induction clusters generalizing index held with
    | nil => exact long
    | cons first rest ih =>
        apply ih
        by_cases here : cluster = first
        · rw [here, Function.update_self, Fat32Fs.length_clusterPart]
        · rw [Function.update_of_ne here, long]

theorem store_chain {start : Nat} {clusters tail : List Nat} {data : List UInt8}
    (chain : volume.Chain fs start clusters) (present : 2 ≤ start)
    (extension : volume.Extension fs (Fat32Fs.visible clusters) data tail) :
    (volume.store fs (Fat32Fs.visible clusters) tail data).Chain fs start
      (Fat32Fs.visible clusters ++ tail) := by
  have distinct := extension.distinct chain.visible_distinct fun cluster member =>
    chain.not_free (Chain.mem_visible member)
  refine ⟨fun absent => by omega, fun _ => ?_, fun cluster member => ?_, distinct, ?_⟩
  · have head := chain.head present
    cases clusters with
    | nil => cases head
    | cons first rest => exact head
  · rcases List.mem_append.mp member with old | new
    · exact chain.visible_valid cluster old
    · exact (extension.fresh new).1
  · refine (thread_linked id fat32Eoc distinct volume.fat).imp fun value last => ?_
    simp only [EndOfChain, last, le_refl]

end Volume

namespace Fat32Fs

variable {fs : Fat32Fs} {volume : Volume} {data : List UInt8}

theorem Geometry.clusterSize_pos (geometry : fs.Geometry) : 0 < fs.bpb.clusterSizeBytes := by
  have := geometry.clusterSectors
  rw [geometry.clusterSize]
  omega

theorem writeFileData_visits (geometry : fs.Geometry) {start : Nat} {tail : List Nat}
    (visits : volume.Visits fs start)
    (extension : volume.Extension fs (volume.chainOf start) data tail) :
    Runs fs (fs.writeFileData start data) volume (.ok ())
      (volume.store fs (volume.chainOf start) tail data) := by
  have size := geometry.clusterSize_pos
  have valid : ∀ cluster ∈ volume.chainOf start, fs.Valid cluster := visits
  rw [writeFileData, if_neg (by omega)]
  refine Runs.bind (readChain_visits geometry visits) ?_
  generalize volume.chainOf start = clusters at valid extension ⊢
  rcases extension with ⟨enough, rfl⟩ | ⟨short, cluster, found, rfl⟩
  · rw [Nat.sub_eq_zero_of_le enough]
    refine Runs.bind (Runs.pure _) ?_
    rw [if_neg (Nat.lt_irrefl _)]
    have stored : (⟨thread id fat32Eoc clusters volume.fat,
        fs.fillData data clusters 0 volume.data⟩ : Volume) =
        volume.store fs clusters [] data := by
      simp only [Volume.store, List.append_nil, List.not_mem_nil, if_false]
    rw [← stored]
    exact Runs.bind (writeParts_runs geometry valid 0 volume) <|
      Runs.bind (linkClusters_runs geometry valid) (Runs.pure _)
  · obtain ⟨extra, missing⟩ : ∃ extra, fs.clustersNeeded data - clusters.length =
        extra + 1 := ⟨fs.clustersNeeded data - clusters.length - 1, by omega⟩
    have freeValid := (Volume.firstFree_some found).1
    have allValid : ∀ other ∈ clusters ++ List.replicate (extra + 1) cluster,
        fs.Valid other := by
      intro other member
      rcases List.mem_append.mp member with old | new
      · exact valid other old
      · rw [List.eq_of_mem_replicate new]
        exact freeValid
    have repeats : (List.replicate (extra + 1) cluster).head? = some cluster := rfl
    have links : thread id fat32Eoc (clusters ++ List.replicate (extra + 1) cluster)
        volume.fat = thread id fat32Eoc (clusters ++ [cluster]) volume.fat := by
      rw [thread_append, thread_append, thread_repeated, repeats]
      rfl
    have parts : fs.fillData data (clusters ++ List.replicate (extra + 1) cluster) 0
          (Function.update volume.data cluster fs.clusterZeros) =
        (volume.store fs clusters [cluster] data).data := by
      have last : 0 + clusters.length + extra = fs.clustersNeeded data - 1 := by omega
      rw [fillData_append, fillData_repeated, last]
      funext other
      simp only [Volume.store, List.mem_singleton]
      by_cases here : other = cluster
      · rw [if_pos here, here, Function.update_self]
      · rw [if_neg here, Function.update_of_ne here]
        exact fillData_congr (Function.update_of_ne here ..) _ _
    have stored : (⟨thread id fat32Eoc (clusters ++ List.replicate (extra + 1) cluster)
          volume.fat, fs.fillData data (clusters ++ List.replicate (extra + 1) cluster) 0
          (Function.update volume.data cluster fs.clusterZeros)⟩ : Volume) =
        volume.store fs clusters [cluster] data := by
      rw [links, parts]
      rfl
    rw [missing]
    refine Runs.bind (extendClusters_runs geometry found extra _) ?_
    rw [if_neg (by rw [List.length_append]; omega), ← stored]
    exact Runs.bind (writeParts_runs geometry allValid 0 _) <|
      Runs.bind (linkClusters_runs geometry allValid) (Runs.pure _)

theorem writeFileData_runs (geometry : fs.Geometry) {start : Nat} {clusters tail : List Nat}
    (chain : volume.Chain fs start clusters)
    (extension : volume.Extension fs (visible clusters) data tail) :
    Runs fs (fs.writeFileData start data) volume (.ok ())
      (volume.store fs (visible clusters) tail data) := by
  rw [← geometry.chainOf_eq chain] at extension ⊢
  exact writeFileData_visits geometry (geometry.chain_visits chain) extension

theorem writeFileData_refused (geometry : fs.Geometry) {start : Nat} (visits : volume.Visits fs start)
    (short : (volume.chainOf start).length < fs.clustersNeeded data)
    (full : volume.firstFree fs = none) : fs.Refuses (fs.writeFileData start data) volume := by
  have size := geometry.clusterSize_pos
  obtain ⟨reason, refused⟩ := allocCluster_none geometry full
  obtain ⟨extra, missing⟩ : ∃ extra, fs.clustersNeeded data - (volume.chainOf start).length =
      extra + 1 := ⟨fs.clustersNeeded data - (volume.chainOf start).length - 1, by omega⟩
  refine ⟨reason, ?_⟩
  rw [writeFileData, if_neg (by omega)]
  refine Runs.bind (readChain_visits geometry visits) ?_
  rw [missing]
  exact Runs.bind_error (Runs.bind_error refused _) _

theorem writeFileData_full (geometry : fs.Geometry) {start : Nat} {clusters : List Nat}
    (chain : volume.Chain fs start clusters)
    (short : (visible clusters).length < fs.clustersNeeded data)
    (full : volume.firstFree fs = none) : fs.Refuses (fs.writeFileData start data) volume := by
  rw [← geometry.chainOf_eq chain] at short
  exact writeFileData_refused geometry (geometry.chain_visits chain) short full

end Fat32Fs

namespace Volume

variable {fs : Fat32Fs} {volume : Volume}

/-- A cluster zeroed and marked as a chain of its own. -/
def reserve (fs : Fat32Fs) (volume : Volume) (cluster : Nat) : Volume :=
  (volume.setData cluster fs.clusterZeros).setFat cluster fat32Eoc

theorem marked_chain {cluster : Nat} (valid : fs.Valid cluster) (bytes : List UInt8) :
    ((volume.setData cluster bytes).setFat cluster fat32Eoc).Chain fs cluster [cluster] := by
  apply chain_single valid
  simp only [setFat_fat_same, EndOfChain, le_refl]

theorem reserve_chain {cluster : Nat} (valid : fs.Valid cluster) :
    (volume.reserve fs cluster).Chain fs cluster [cluster] := marked_chain valid _

theorem reserve_shaped (shaped : volume.Shaped fs) (cluster : Nat) :
    (volume.reserve fs cluster).Shaped fs :=
  (shaped.setData cluster (length_zeros _)).setFat cluster _

theorem store_empty (cluster : Nat) :
    (volume.reserve fs cluster).store fs [cluster] [] [] = volume.reserve fs cluster := by
  have empty : fs.clusterPart [] 0 = fs.clusterZeros := by
    simp only [Fat32Fs.clusterPart, slice, List.drop_nil, List.take_nil, splice_nil]
  simp only [store, List.append_nil, List.not_mem_nil, if_false, thread, List.head?_nil,
    Option.map_none, Option.getD_none, Fat32Fs.fillData, empty, reserve, setFat, setData,
    Function.update_idem]

end Volume

namespace Fat32Fs

variable {fs : Fat32Fs} {volume : Volume} {data : List UInt8}

theorem allocateAndWrite_runs (geometry : fs.Geometry) {cluster : Nat} {tail : List Nat}
    (found : volume.firstFree fs = some cluster)
    (extension : (volume.reserve fs cluster).Extension fs [cluster] data tail) :
    Runs fs (fs.allocateAndWrite data) volume (.ok cluster)
      ((volume.reserve fs cluster).store fs [cluster] tail data) := by
  have valid := (Volume.firstFree_some found).1
  refine Runs.bind (allocCluster_some geometry found) ?_
  refine Runs.bind (writeFatEntry_runs geometry valid (by decide)) ?_
  by_cases empty : data = []
  · subst empty
    have none : tail = [] := by
      rcases extension with ⟨_, none⟩ | ⟨short, _⟩
      · exact none
      · exact absurd short (by simp [clustersNeeded])
    rw [none, Volume.store_empty, if_neg (by simp)]
    exact Runs.bind (Runs.pure _) (Runs.pure _)
  · rw [if_pos empty]
    exact Runs.bind
      (writeFileData_runs geometry (Volume.reserve_chain valid) extension) (Runs.pure _)

theorem allocateAndWrite_full (geometry : fs.Geometry) (full : volume.firstFree fs = none) :
    fs.Refuses (fs.allocateAndWrite data) volume := by
  obtain ⟨reason, refused⟩ := allocCluster_none geometry full
  exact ⟨reason, Runs.bind_error refused _⟩

theorem allocateAndWrite_short (geometry : fs.Geometry) {cluster : Nat}
    (found : volume.firstFree fs = some cluster) (long : 1 < fs.clustersNeeded data)
    (full : (volume.reserve fs cluster).firstFree fs = none) :
    ∃ reason, Runs fs (fs.allocateAndWrite data) volume (.error reason)
      (volume.reserve fs cluster) := by
  have valid := (Volume.firstFree_some found).1
  have some : data ≠ [] := by
    rintro rfl
    exact absurd long (by simp [clustersNeeded])
  obtain ⟨reason, refused⟩ :=
    writeFileData_full geometry (Volume.reserve_chain valid) long full
  refine ⟨reason, Runs.bind (allocCluster_some geometry found) ?_⟩
  refine Runs.bind (writeFatEntry_runs geometry valid (by decide)) ?_
  rw [if_pos some]
  exact Runs.bind_error refused _

end Fat32Fs

namespace Volume

variable {fs : Fat32Fs} {volume : Volume} {data : List UInt8}

theorem byteAt_clusterPart (fs : Fat32Fs) (data : List UInt8) (place : Nat) {index : Nat}
    (inside : index < fs.bpb.clusterSizeBytes) : byteAt (fs.clusterPart data place) index =
      byteAt data (place * fs.bpb.clusterSizeBytes + index) := by
  have short : (slice data (place * fs.bpb.clusterSizeBytes) fs.bpb.clusterSizeBytes).length ≤
      fs.bpb.clusterSizeBytes := by
    rw [slice, List.length_take]
    omega
  rw [Fat32Fs.clusterPart, Fat32Fs.clusterZeros, fit_eq_splice short, byteAt_fit, if_pos inside,
    byteAt_slice, if_pos inside]

theorem flatMap_fillData {clusters : List Nat} (distinct : clusters.Nodup) (place : Nat)
    (held : Nat → List UInt8) : clusters.flatMap (fs.fillData data clusters place held) =
      (List.range' place clusters.length).flatMap (fs.clusterPart data) := by
  induction clusters generalizing place held with
  | nil => rfl
  | cons cluster rest ih =>
      rw [List.nodup_cons] at distinct
      have own : fs.fillData data (cluster :: rest) place held cluster =
          fs.clusterPart data place := by
        rw [Fat32Fs.fillData, Fat32Fs.fillData_other distinct.1, Function.update_self]
      rw [List.flatMap_cons, own, Fat32Fs.fillData, ih distinct.2, List.length_cons,
        List.range'_succ, List.flatMap_cons]

theorem length_parts (place count : Nat) :
    ((List.range' place count).flatMap (fs.clusterPart data)).length =
      count * fs.bpb.clusterSizeBytes := by
  induction count generalizing place with
  | zero => simp
  | succ count ih =>
      rw [List.range'_succ, List.flatMap_cons, List.length_append, ih,
        Fat32Fs.length_clusterPart, Nat.add_mul, Nat.one_mul, Nat.add_comm]

theorem byteAt_parts (place count index : Nat) :
    byteAt ((List.range' place count).flatMap (fs.clusterPart data)) index =
      if index < count * fs.bpb.clusterSizeBytes
      then byteAt data (place * fs.bpb.clusterSizeBytes + index) else 0 := by
  induction count generalizing place index with
  | zero => simp [byteAt]
  | succ count ih =>
      rw [List.range'_succ, List.flatMap_cons, byteAt_append, Fat32Fs.length_clusterPart,
        Nat.add_mul, Nat.one_mul]
      by_cases inside : index < fs.bpb.clusterSizeBytes
      · rw [if_pos inside, if_pos (by omega), byteAt_clusterPart fs data place inside]
      · rw [if_neg inside, ih, Nat.add_mul, Nat.one_mul]
        by_cases within : index - fs.bpb.clusterSizeBytes < count * fs.bpb.clusterSizeBytes
        · rw [if_pos within, if_pos (by omega)]
          congr 1
          omega
        · rw [if_neg within, if_neg (by omega)]

/-- What a chain holds once data is stored in it: the data as far as the old chain reaches, and
behind it the last part of the data. -/
theorem byteAt_store {clusters tail : List Nat} (distinct : (clusters ++ tail).Nodup)
    (single : tail.length ≤ 1) (index : Nat) :
    byteAt ((volume.store fs clusters tail data).contents (clusters ++ tail)) index =
      if index < clusters.length * fs.bpb.clusterSizeBytes then byteAt data index
      else if index < (clusters.length + tail.length) * fs.bpb.clusterSizeBytes then
        byteAt data ((fs.clustersNeeded data - 1) * fs.bpb.clusterSizeBytes +
          (index - clusters.length * fs.bpb.clusterSizeBytes))
      else 0 := by
  have front : clusters.flatMap (volume.store fs clusters tail data).data =
      clusters.flatMap (fs.fillData data clusters 0 volume.data) := by
    simp only [List.flatMap]
    congr 1
    apply List.map_congr_left
    intro cluster member
    have apart : cluster ∉ tail := List.disjoint_of_nodup_append distinct member
    simp only [store, if_neg apart]
  have filled : (volume.store fs clusters tail data).contents (clusters ++ tail) =
      (List.range' 0 clusters.length).flatMap (fs.clusterPart data) ++
        tail.flatMap (volume.store fs clusters tail data).data := by
    rw [contents, List.flatMap_append, front, flatMap_fillData (List.Nodup.of_append_left distinct)]
  rw [filled, byteAt_append, length_parts, byteAt_parts, Nat.zero_mul, Nat.zero_add]
  by_cases inside : index < clusters.length * fs.bpb.clusterSizeBytes
  · simp only [if_pos inside]
  · rw [if_neg inside, if_neg inside]
    rcases tail with _ | ⟨cluster, _ | ⟨other, rest⟩⟩
    · rw [List.length_nil, Nat.add_zero, if_neg inside]
      simp [byteAt]
    · simp only [List.flatMap_cons, List.flatMap_nil, List.append_nil, store,
        List.mem_singleton, if_true, List.length_singleton, Nat.add_mul, Nat.one_mul]
      by_cases within : index - clusters.length * fs.bpb.clusterSizeBytes <
          fs.bpb.clusterSizeBytes
      · rw [if_pos (by omega), byteAt_clusterPart fs data _ within]
      · rw [if_neg (by omega), byteAt_beyond]
        rw [Fat32Fs.length_clusterPart]
        omega
    · simp only [List.length_cons] at single
      omega

theorem contents_store {clusters : List Nat} (shaped : volume.Shaped fs) (distinct : clusters.Nodup)
    (enough : data.length ≤ clusters.length * fs.bpb.clusterSizeBytes) :
    ((volume.store fs clusters [] data).contents clusters).take data.length = data := by
  have long : ((volume.store fs clusters [] data).contents clusters).length = _ :=
    length_contents (store_shaped shaped) clusters
  have apart : (clusters ++ []).Nodup := by
    rw [List.append_nil]
    exact distinct
  apply bytes_ext
  · rw [List.length_take, long]
    omega
  · intro index bound
    have held : byteAt ((volume.store fs clusters [] data).contents (clusters ++ [])) index = _ :=
      byteAt_store apart (Nat.zero_le 1) index
    rw [List.append_nil, if_pos (by omega)] at held
    rw [byteAt_take, if_pos bound, held]

end Volume

end ArcadiaOs.Fs
