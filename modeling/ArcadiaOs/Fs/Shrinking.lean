import ArcadiaOs.Fs.DirectoryMap

/-!
Rewriting a file with less data.  `write_file_data` works on one list of clusters, which
starts as the whole chain and only grows: what the data no longer needs is filled with zeros
and linked again, and the loop at its end has nothing to release.
-/

namespace ArcadiaOs.Fs

open Lib

namespace Fat32Fs

/-- The clusters of its chain that a file keeps for the data: its first one at least. -/
def clustersKept (fs : Fat32Fs) (data : List UInt8) : Nat := max 1 (fs.clustersNeeded data)

/-- A chain rewritten with data that needs no more than it has, and its surplus released. -/
structure Shrunk (fs : Fat32Fs) (start : Nat) (clusters : List Nat) (data : List UInt8)
    (device device' : Device) : Prop where
  chain : (fs.readChain start).answer device' = .ok (clusters.take (fs.clustersKept data))
  released : ∀ cluster ∈ clusters.drop (fs.clustersKept data), (fs.view device').fat cluster = 0
  -- the last cluster that is kept gets an end mark
  others : ∀ cluster, cluster ∉ clusters.drop (fs.clustersKept data - 1) →
    (fs.view device').fat cluster = (fs.view device).fat cluster
  content : ∀ buf, buf.length = data.length →
    (fs.readFile start data.length buf).answer device' = .ok (data.length, data)

end Fat32Fs

namespace Volume

variable {fs : Fat32Fs} {volume : Volume} {start : Nat} {clusters tail : List Nat}
  {data : List UInt8}

theorem Chain.begins (chain : volume.Chain fs start clusters) (present : clusters ≠ []) :
    2 ≤ start := by
  by_contra absent
  exact present (chain.none (Nat.lt_of_not_le absent))

theorem store_not_free (chain : volume.Chain fs start clusters) (present : 2 ≤ start)
    (extension : volume.Extension fs (Fat32Fs.visible clusters) data tail) {cluster : Nat}
    (member : cluster ∈ clusters) :
    (volume.store fs (Fat32Fs.visible clusters) tail data).fat cluster ≠ 0 := by
  by_cases stored : cluster ∈ Fat32Fs.visible clusters ++ tail
  · exact (store_chain chain present extension).not_free stored
  · rw [store_fat_other stored]
    exact chain.not_free member

theorem store_short (short : clusters.length ≤ Fat32Fs.maxChain + 1)
    (fits : fs.clustersNeeded data ≤ clusters.length)
    (extension : volume.Extension fs (Fat32Fs.visible clusters) data tail) :
    volume.store fs (Fat32Fs.visible clusters) tail data = volume.store fs clusters [] data := by
  have shown := Fat32Fs.visible_short short
  rcases extension with ⟨_, none⟩ | ⟨missing, _⟩
  · rw [shown, none]
  · rw [shown] at missing
    exact absurd missing (Nat.not_lt.mpr fits)

end Volume

namespace Fat32Fs

variable {fs : Fat32Fs} {start : Nat} {clusters : List Nat} {data : List UInt8}
  {device device' : Device}

theorem length_of_needed (geometry : fs.Geometry) {count : Nat}
    (fits : fs.clustersNeeded data ≤ count) : data.length ≤ count * fs.bpb.clusterSizeBytes := by
  have some := geometry.clusterSize_pos
  rw [clustersNeeded] at fits
  split at fits
  · rename_i empty
    rw [empty, List.length_nil]
    exact Nat.zero_le _
  · rw [← Nat.lt_succ_iff, Nat.div_lt_iff_lt_mul some, Nat.succ_mul] at fits
    omega

section Rewritten

variable (geometry : fs.Geometry) (chain : (fs.view device).Chain fs start clusters)
  (fits : fs.clustersNeeded data ≤ clusters.length)
include geometry chain fits

theorem writeFileData_cases (healthy : device.Healthy) :
    (maxChain + 1 < fs.clustersNeeded data ∧ (fs.view device).firstFree fs = none ∧
      ∀ device', fs.writeFileData start data device ≠ .ok () device') ∨
    ∃ tail device', (fs.view device).Extension fs (visible clusters) data tail ∧
      fs.writeFileData start data device = .ok () device' ∧ device'.Healthy ∧
      fs.view device' = (fs.view device).store fs (visible clusters) tail data := by
  by_cases enough : fs.clustersNeeded data ≤ (visible clusters).length
  · obtain ⟨device', ran, healthy', holds⟩ :=
      writeFileData_runs geometry chain (.inl ⟨enough, rfl⟩) device healthy rfl
    exact .inr ⟨[], device', .inl ⟨enough, rfl⟩, ran, healthy', holds⟩
  · cases found : (fs.view device).firstFree fs with
    | none =>
        obtain ⟨reason, refused⟩ := writeFileData_full geometry chain (Nat.lt_of_not_le enough) found
        obtain ⟨device', ran, _, _⟩ := refused device healthy rfl
        refine .inl ⟨?_, rfl, fun other done => ?_⟩
        · rw [visible, List.length_take] at enough
          omega
        · rw [ran] at done
          cases done
    | some cluster =>
        have extension : (fs.view device).Extension fs (visible clusters) data [cluster] :=
          .inr ⟨Nat.lt_of_not_le enough, cluster, found, rfl⟩
        obtain ⟨device', ran, healthy', holds⟩ :=
          writeFileData_runs geometry chain extension device healthy rfl
        exact .inr ⟨[cluster], device', extension, ran, healthy', holds⟩

variable (present : clusters ≠ [])
include present

theorem shrunk_of_kept (kept : fs.clustersKept data = clusters.length)
    (short : clusters.length ≤ maxChain + 1) (healthy' : device'.Healthy)
    (holds : fs.view device' = (fs.view device).store fs clusters [] data) :
    fs.Shrunk start clusters data device device' := by
  have shown := visible_short short
  have begins := chain.begins present
  have after : ((fs.view device).store fs clusters [] data).Chain fs start clusters := by
    have extension : (fs.view device).Extension fs (visible clusters) data [] :=
      .inl ⟨shown.symm ▸ fits, rfl⟩
    have stored := Volume.store_chain chain begins extension
    rw [shown, List.append_nil] at stored
    exact stored
  have shaped : (fs.view device).Shaped fs := length_view_data geometry device
  constructor
  case chain =>
    rw [(readChain_runs geometry after).answer healthy' holds, shown, kept, List.take_length]
  case released =>
    intro cluster member
    rw [kept, List.drop_length] at member
    cases member
  case others =>
    intro cluster outside
    rw [kept] at outside
    rw [holds, Volume.store_alone]
    exact thread_linked_kept chain.linked outside
  case content =>
    intro buf long
    have enough := length_of_needed geometry fits
    have ran := readFile_counts geometry (Volume.store_shaped shaped) after data.length buf
    rw [ran.answer healthy' holds, shown, long, Nat.min_self, Nat.min_eq_left enough,
      Volume.contents_store shaped chain.distinct enough, splice_whole long.le]

theorem kept_of_shrunk {tail : List Nat}
    (extension : (fs.view device).Extension fs (visible clusters) data tail)
    (healthy' : device'.Healthy)
    (holds : fs.view device' = (fs.view device).store fs (visible clusters) tail data)
    (shrunk : fs.Shrunk start clusters data device device') :
    fs.clustersKept data = clusters.length ∧ clusters.length ≤ maxChain + 1 := by
  have begins := chain.begins present
  have some : 1 ≤ clusters.length := List.length_pos_iff.mpr present
  have all : clusters.length ≤ fs.clustersKept data := by
    by_contra surplus
    have member : clusters[fs.clustersKept data] ∈ clusters.drop (fs.clustersKept data) := by
      rw [List.drop_eq_getElem_cons (Nat.lt_of_not_le surplus)]
      exact List.mem_cons_self
    have free := shrunk.released _ member
    rw [holds] at free
    exact Volume.store_not_free chain begins extension (List.mem_of_mem_drop member) free
  have kept : fs.clustersKept data = clusters.length :=
    Nat.le_antisymm (Nat.max_le.mpr ⟨some, fits⟩) all
  refine ⟨kept, ?_⟩
  have after := Volume.store_chain chain begins extension
  have read := (readChain_runs geometry after).answer healthy' holds
  rw [shrunk.chain, kept, List.take_length] at read
  have same := congrArg List.length (Except.ok.inj read)
  rw [same, visible, List.length_take]
  exact Nat.min_le_left _ _

end Rewritten

end Fat32Fs

/-- Data that needs no more clusters than the file has is stored and the surplus released exactly
when there is no surplus, as far as `read_chain` goes; beyond that the write may be refused. -/
theorem rewrite_releases_iff {fs : Fat32Fs} (geometry : fs.Geometry) {device : Device}
    (healthy : device.Healthy) {start : Nat} {clusters : List Nat}
    (chain : (fs.view device).Chain fs start clusters) (present : clusters ≠ [])
    {data : List UInt8} (fits : fs.clustersNeeded data ≤ clusters.length) :
    (∀ device', fs.writeFileData start data device = .ok () device' →
        fs.Shrunk start clusters data device device') ↔
      (fs.clustersKept data = clusters.length ∧ clusters.length ≤ Fat32Fs.maxChain + 1) ∨
        (Fat32Fs.maxChain + 1 < fs.clustersNeeded data ∧ (fs.view device).firstFree fs = none) := by
  have outcomes := Fat32Fs.writeFileData_cases geometry chain fits healthy
  constructor
  · intro shrinks
    rcases outcomes with ⟨long, full, _⟩ | ⟨tail, device', extension, ran, healthy', holds⟩
    · exact .inr ⟨long, full⟩
    · exact .inl (Fat32Fs.kept_of_shrunk geometry chain fits present extension healthy' holds
        (shrinks device' ran))
  · intro condition device' done
    rcases outcomes with ⟨_, _, refused⟩ | ⟨tail, other, extension, ran, healthy', holds⟩
    · exact absurd done (refused device')
    · rw [ran] at done
      injection done with _ same
      subst same
      rcases condition with ⟨kept, short⟩ | ⟨long, full⟩
      · rw [Volume.store_short short fits extension] at holds
        exact Fat32Fs.shrunk_of_kept geometry chain fits present kept short healthy' holds
      · rcases extension with ⟨enough, _⟩ | ⟨_, cluster, found, _⟩
        · rw [Fat32Fs.visible, List.length_take] at enough
          omega
        · rw [full] at found
          cases found

/-! A file of two clusters on the small volume. -/

def twoClusterDevice : Device where
  sector lba :=
    if lba = 1 then
      filledSector 8 (leBytes 4 fat32Eoc ++ leBytes 4 4 ++ leBytes 4 fat32Eoc) (by decide)
    else ⟨zeros sectorSize, length_zeros _⟩
  readable _ := true
  writable _ := true

theorem twoCluster_chain : (smallFs.view twoClusterDevice).Chain smallFs 3 [3, 4] := by
  have links : (smallFs.view twoClusterDevice).fat 3 = 4 ∧
      (smallFs.view twoClusterDevice).fat 4 = fat32Eoc := by decide
  refine ⟨fun absent => by omega, fun _ => rfl, ?_, by decide, links.1, ?_, trivial⟩
  · decide
  · exact links.2.ge

theorem rewrite_releases_both :
    (∀ device', smallFs.writeFileData 3 (zeros 600) twoClusterDevice = .ok () device' →
        smallFs.Shrunk 3 [3, 4] (zeros 600) twoClusterDevice device') ↔
      (smallFs.clustersKept (zeros 600) = [3, 4].length ∧
          [3, 4].length ≤ Fat32Fs.maxChain + 1) ∨
        (Fat32Fs.maxChain + 1 < smallFs.clustersNeeded (zeros 600) ∧
          (smallFs.view twoClusterDevice).firstFree smallFs = none) :=
  rewrite_releases_iff smallFs_geometry (fun _ => ⟨rfl, rfl⟩) twoCluster_chain (by decide)
    (by decide +kernel)

/-- One byte written over two clusters: the write succeeds, and the second cluster is neither
released nor cut off. -/
theorem surplus_kept : twoClusterDevice.Healthy ∧
    (smallFs.view twoClusterDevice).Chain smallFs 3 [3, 4] ∧ smallFs.clustersNeeded [7] = 1 ∧
    ∃ device', smallFs.writeFileData 3 [7] twoClusterDevice = .ok () device' ∧
      (smallFs.readChain 3).answer device' = .ok [3, 4] ∧ (smallFs.view device').fat 4 = fat32Eoc ∧
      ¬smallFs.Shrunk 3 [3, 4] [7] twoClusterDevice device' := by
  have healthy : twoClusterDevice.Healthy := fun _ => ⟨rfl, rfl⟩
  have needed : smallFs.clustersNeeded [7] = 1 := by decide
  have shown : Fat32Fs.visible [3, 4] = [3, 4] := Fat32Fs.visible_short (by decide)
  have extension : (smallFs.view twoClusterDevice).Extension smallFs (Fat32Fs.visible [3, 4]) [7] [] :=
    .inl ⟨by rw [shown, needed]; decide, rfl⟩
  obtain ⟨device', ran, healthy', holds⟩ := Fat32Fs.writeFileData_runs smallFs_geometry
    twoCluster_chain extension twoClusterDevice healthy rfl
  have after := Volume.store_chain twoCluster_chain (by decide) extension
  have read := (Fat32Fs.readChain_runs smallFs_geometry after).answer healthy' holds
  rw [shown, List.append_nil, shown] at read
  have ended : (smallFs.view device').fat 4 = fat32Eoc := by
    rw [holds, shown, Volume.store_alone]
    rfl
  refine ⟨healthy, twoCluster_chain, needed, device', ran, read, ended, fun shrunk => ?_⟩
  have free := shrunk.released 4 (by rw [Fat32Fs.clustersKept, needed]; decide)
  rw [ended] at free
  exact absurd free (by decide)

end ArcadiaOs.Fs
