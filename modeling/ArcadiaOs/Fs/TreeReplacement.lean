import ArcadiaOs.Fs.TreeCreation

/-!
Files replaced and removed in the file tree.  The chain of the old file is freed, so whatever else
is live keeps its clusters, and the directory changes in one slot.
-/

namespace ArcadiaOs.Fs

open Lib

theorem InOrder.renew {front back : List Fat32DirEntry} {old new : Fat32DirEntry}
    (order : InOrder (front ++ old :: back)) (noEnd : NoEnd front) (notEnd : old.isEnd = false)
    (shown : old.isHidden = false) (name : new.name = old.name) (ext : new.ext = old.ext)
    (attributes : new.attributes = old.attributes) : InOrder (front ++ new :: back) := by
  have newNotEnd : new.isEnd = false := by
    rw [Fat32DirEntry.isEnd, name]
    exact notEnd
  have newShown : new.isHidden = false := by
    simp only [Fat32DirEntry.isHidden, Fat32DirEntry.isDeleted, Fat32DirEntry.isLongName,
      Fat32DirEntry.isVolumeLabel, name, attributes] at shown ⊢
    exact shown
  have key : new.fullNameUpper = old.fullNameUpper := by
    unfold Fat32DirEntry.fullNameUpper Fat32DirEntry.extShown
    rw [name, ext]
  have before : liveOf (front ++ old :: back) = liveOf front ++ old :: liveOf back := by
    rw [noEnd.liveOf_append, liveOf_shown notEnd shown]
  have after : liveOf (front ++ new :: back) = liveOf front ++ new :: liveOf back := by
    rw [noEnd.liveOf_append, liveOf_shown newNotEnd newShown]
  refine ⟨noEnd.zeroTail_replace order.zeroTail newNotEnd, ?_, fun entry member notDot => ?_⟩
  · have unique := order.unique
    rw [before] at unique
    rw [after]
    simpa only [UniqueKeys, List.map_append, List.map_cons, key] using unique
  · have plain := order.plain
    rw [before] at plain
    rw [after, List.mem_append, List.mem_cons] at member
    rcases member with inFront | rfl | inBack
    · exact plain entry (List.mem_append_left _ inFront) notDot
    · have oldNotDot : ¬IsDot old := by
        simpa only [IsDot, Fat32DirEntry.isDirectory, name, attributes, key] using notDot
      obtain ⟨base, extension, short, upper, named, suffixed⟩ :=
        plain old (List.mem_append_right _ List.mem_cons_self) oldNotDot
      exact ⟨base, extension, short, upper, name.trans named, ext.trans suffixed⟩
    · exact plain entry (List.mem_append_right _ (List.mem_cons_of_mem _ inBack)) notDot

namespace Volume

variable {fs : Fat32Fs} {volume volume' : Volume}

theorem slotEntries_edited {clusters : List Nat} (distinct : clusters.Nodup)
    {front back : List Position} {position : Position}
    (split : fs.positions clusters = front ++ position :: back)
    (others : ∀ other ∈ fs.positions clusters, other ≠ position →
      volume'.entry other = volume.entry other) :
    volume'.slotEntries fs clusters =
      front.map volume.entry ++ volume'.entry position :: back.map volume.entry := by
  have nodup := fs.positions_nodup distinct
  rw [split, List.nodup_middle, List.nodup_cons, List.mem_append, not_or] at nodup
  rw [split] at others
  rw [slotEntries, split, List.map_append, List.map_cons]
  congr 1
  · refine List.map_congr_left fun other member => ?_
    exact others other (List.mem_append_left _ member) fun same => nodup.1.1 (same ▸ member)
  · congr 1
    refine List.map_congr_left fun other member => ?_
    refine others other (List.mem_append_right _ (List.mem_cons_of_mem _ member)) fun same => ?_
    exact nodup.1.2 (same ▸ member)

/-- What storing a regular file anew leaves: its slot names a chain of its own, the other slots are
as they were, and so is every cluster outside the chain that was freed. -/
structure Renewed (fs : Fat32Fs) (volume volume' : Volume) (position : Position) (freed : List Nat)
    (cluster size : Nat) (clusters : List Nat) : Prop where
  sound : volume'.Sound fs
  sameDirs : volume.SameDirs fs volume'
  kept : ∀ other, volume.fat other ≠ 0 → other ∉ freed → other ≠ position.1 →
    volume.Kept volume' other
  entry : volume'.entry position = relinked (volume.entry position) cluster size
  others : ∀ dir own, volume.LiveDir fs dir → volume.Chain fs dir own →
    ∀ other ∈ fs.positions own, other ≠ position → volume'.entry other = volume.entry other
  rechain : ∃ clusters', volume.Rechain fs volume' (.slot position) freed clusters'
  started : (relinked (volume.entry position) cluster size).firstCluster = cluster
  chain : volume'.Chain fs cluster clusters

/-- What deleting a regular file leaves: whatever is live was so before and is not the file, and every
cluster is as it was outside the chain of the file and the cluster of its slot. -/
structure Dropped (fs : Fat32Fs) (volume volume' : Volume) (position : Position) (freed : List Nat) :
    Prop where
  sound : volume'.Sound fs
  kept : ∀ other, other ∉ freed → other ≠ position.1 → volume.Kept volume' other
  live : ∀ owner, volume'.Live fs owner → volume.Live fs owner ∧ owner ≠ .slot position ∧
    volume'.start fs owner = volume.start fs owner ∧
    volume'.directory owner = volume.directory owner
  slots : ∀ dir own, volume.LiveDir fs dir → volume.Chain fs dir own →
    ∀ cluster ∈ own, (volume.erase position).Kept volume' cluster

section File

variable (geometry : fs.Geometry) (shaped : volume.Shaped fs) (formed : WellFormed fs volume)
  {path : Path} {dir : Nat} (targets : volume.Targets fs path dir) (named : EndsInName path)
  {position : Position} (found : volume.findIn fs dir path = some position)
  (regular : (volume.entry position).isDirectory = false)
include geometry formed targets found regular

omit regular in
theorem found_split : ∃ clusters front back, volume.Chain fs dir clusters ∧
    clusters.length ≤ Fat32Fs.maxChain ∧ volume.slotsOf fs dir = fs.positions clusters ∧
    fs.positions clusters = front ++ position :: back ∧ position.1 ∈ clusters ∧
    volume.slotEntries fs clusters =
      front.map volume.entry ++ volume.entry position :: back.map volume.entry ∧
    (∀ slot ∈ front.map volume.entry, judgeName (toUpper83 (fileName path)) slot = .skip) ∧
    judgeName (toUpper83 (fileName path)) (volume.entry position) = .take := by
  have live := targets.live geometry formed.sound
  obtain ⟨clusters, chain, short, _⟩ := records_of_formed formed live
  have slots : volume.slotsOf fs dir = fs.positions clusters := by
    rw [slotsOf_eq geometry chain, Fat32Fs.slots,
      Fat32Fs.visible_short (Nat.le_succ_of_le short)]
  rw [findIn, slots] at found
  obtain ⟨_, front, back, split, before, skipped, taken⟩ := scan_split (find_eq_some.mp found)
  have member : position ∈ fs.positions clusters := by
    rw [split]
    exact List.mem_append_right _ List.mem_cons_self
  exact ⟨clusters, front, back, chain, short, slots, split, (Fat32Fs.mem_positions.mp member).1,
    before, skipped, taken⟩

/-- What is live and starts elsewhere has no cluster of the file or of its directory. -/
theorem file_apart {freed : List Nat} (owned : volume.Owns fs (.slot position) freed)
    {owner : Owner} {clusters : List Nat} (ownerLive : volume.Live fs owner)
    (elsewhere : volume.start fs owner ≠ dir) (other : owner ≠ .slot position)
    (owns : volume.Owns fs owner clusters) {cluster : Nat} (member : cluster ∈ clusters) :
    cluster ∉ freed ∧ cluster ≠ position.1 := by
  have sound := formed.sound
  have live := targets.live geometry sound
  have slot := targets.slot geometry sound found regular
  obtain ⟨own, _, _, chain, _, _, _, inside, _⟩ := found_split geometry formed targets found
  refine ⟨fun freedMember => ?_, ?_⟩
  · exact sound.apart owner _ ownerLive slot other clusters freed owns owned member freedMember
  · rintro rfl
    exact live.disjoint sound chain ownerLive elsewhere owns member inside

theorem file_around {freed : List Nat} (owned : volume.Owns fs (.slot position) freed)
    (kept : ∀ other, volume.fat other ≠ 0 → other ∉ freed → other ≠ position.1 →
      volume.Kept volume' other) :
    volume.Around fs volume' dir fun owner => owner = .slot position := by
  refine ⟨fun owner clusters ownerLive elsewhere other owns cluster member => ?_, ?_⟩
  · obtain ⟨outside, apart⟩ := file_apart geometry formed targets found regular owned ownerLive
      elsewhere other owns member
    exact kept cluster (owns.not_free member) outside apart
  · rintro _ rfl
    exact regular

omit geometry formed targets regular in
theorem file_named (place : Position) (same : Owner.slot place = .slot position) :
    place ∈ volume.slotsOf fs dir ∧
      (volume.entry place).fullNameUpper = toUpper83 (fileName path) := by
  obtain rfl := Owner.slot.inj same
  exact ⟨(find_spec found).1, (find_spec found).2.2.2.2.2⟩

section Renewed

variable {freed clusters : List Nat} {cluster size : Nat}
  (renewed : Renewed fs volume volume' position freed cluster size clusters)
include renewed

omit found regular in
theorem Renewed.child (key : Path) : volume'.child fs dir key = if IsDotName key then none
    else (volume.find key (volume.slotsOf fs dir)).map volume'.entry := by
  rw [Volume.child, renewed.sameDirs.find_eq geometry formed.sound
    (targets.live geometry formed.sound)]

theorem Renewed.wellFormed (owned : volume.Owns fs (.slot position) freed)
    (few : clusters.length ≤ Fat32Fs.maxChain) : WellFormed fs volume' := by
  have sound := formed.sound
  have live := targets.live geometry sound
  obtain ⟨clusters', rechain⟩ := renewed.rechain
  obtain ⟨own, front, back, ownChain, short, _, split, _, before, skipped, taken⟩ :=
    found_split geometry formed targets found
  have around := file_around geometry formed targets found regular owned renewed.kept
  refine around.wellFormed geometry formed renewed.sound (fun owner ownerLive => ?_)
    fun others chain' => ?_
  · have first := rechain.live_of sound geometry ownerLive
    by_cases same : owner = .slot position
    · subst same
      refine .inl ⟨rechain.kind.trans regular, fun others owns => ?_⟩
      rw [Owns, start, renewed.entry, renewed.started] at owns
      obtain rfl := owns.unique geometry renewed.chain
      exact few
    · exact .inr ⟨first, same, rechain.start_eq sound first fun sameOwner => same sameOwner.symm,
        rechain.directory_eq sound first⟩
  · obtain rfl := chain'.unique geometry (renewed.sameDirs.chains dir own live ownChain)
    have order := formed.inOrder dir others live ownChain
    rw [before] at order
    obtain ⟨notEnd, shown⟩ := take_name taken
    refine ⟨?_, short⟩
    rw [slotEntries_edited ownChain.distinct split (renewed.others dir others live ownChain),
      renewed.entry]
    exact order.renew (fun slot member => skip_name (skipped slot member)) notEnd shown rfl rfl rfl

theorem Renewed.sameBut (owned : volume.Owns fs (.slot position) freed) :
    volume.SameBut fs volume' (Only dir (toUpper83 (fileName path))) := by
  have sound := formed.sound
  have live := targets.live geometry sound
  obtain ⟨own, _, _, ownChain, _, slots, _⟩ := found_split geometry formed targets found
  have around := file_around geometry formed targets found regular owned renewed.kept
  refine around.sameBut geometry sound live (fun key other => ?_) (file_named found)
  rw [renewed.child geometry formed targets, Volume.child]
  split
  · rfl
  · cases first : volume.find key (volume.slotsOf fs dir) with
    | none => rfl
    | some place =>
        obtain ⟨member, _, _, _, _, keyOf⟩ := find_spec first
        have apart : place ≠ position := by
          rintro rfl
          exact other (keyOf.symm.trans (file_named found place rfl).2)
        rw [Option.map_some, Option.map_some,
          renewed.others dir own live ownChain place (slots ▸ member) apart]

include named in
theorem Renewed.puts {data : List UInt8} (owned : volume.Owns fs (.slot position) freed)
    (few : clusters.length ≤ Fat32Fs.maxChain)
    (bytes : volume'.bytesOf (relinked (volume.entry position) cluster size) = data) :
    volume.Puts fs (.ok (), volume') dir (toUpper83 (fileName path)) (some (.file data)) := by
  have here : volume'.child fs dir (toUpper83 (fileName path)) =
      some (relinked (volume.entry position) cluster size) := by
    rw [renewed.child geometry formed targets,
      if_neg fun dot => named.2 ((toUpper83_dots _).mp dot)]
    rw [findIn] at found
    rw [found, Option.map_some, renewed.entry]
  have kind : (relinked (volume.entry position) cluster size).isDirectory = false :=
    (relinked_isDirectory _ _ _).trans regular
  refine ⟨rfl, renewed.wellFormed geometry formed targets found regular owned few,
    renewed.sameBut geometry formed targets found regular owned, ?_, fun record same directory => ?_⟩
  · simp only [here, Option.map_some, recorded, kind, Bool.false_eq_true, if_false, bytes]
  · rw [here, Option.some.injEq] at same
    rw [← same, kind] at directory
    cases directory

end Renewed

include shaped

/-- The chain of the file freed and its data placed: a new chain of free clusters. -/
theorem over_renewed {freed : List Nat} (owned : volume.Owns fs (.slot position) freed)
    {data : List UInt8} {cluster : Nat} {tail : List Nat}
    (stored : (volume.free (volume.entry position).firstCluster).Stored fs data cluster tail)
    (sound' : (((volume.free (volume.entry position).firstCluster).place fs data).2.setEntry position
      (relinked (volume.entry position) cluster data.length)).Sound fs) :
    Renewed fs volume (((volume.free (volume.entry position).firstCluster).place fs data).2.setEntry
        position (relinked (volume.entry position) cluster data.length)) position freed cluster
        data.length ([cluster] ++ tail) ∧
      ∀ other ∈ [cluster] ++ tail,
        ((volume.free (volume.entry position).firstCluster).place fs data).2.Kept
          (((volume.free (volume.entry position).firstCluster).place fs data).2.setEntry position
            (relinked (volume.entry position) cluster data.length)) other := by
  have sound := formed.sound
  have slot := targets.slot geometry sound found regular
  have chain : volume.Chain fs (volume.entry position).firstCluster freed := owned
  have shaped' := place_shaped (free_shaped shaped (volume.entry position).firstCluster) data
  have placed : (volume.free (volume.entry position).firstCluster).place fs data =
      (some cluster, ((volume.free (volume.entry position).firstCluster).place fs data).2) := by
    rw [stored.placed]
  have kept : ∀ other ∈ [cluster] ++ tail,
      ((volume.free (volume.entry position).firstCluster).place fs data).2.Kept
        (((volume.free (volume.entry position).firstCluster).place fs data).2.setEntry position
          (relinked (volume.entry position) cluster data.length)) other := by
    intro other member
    have apart : other ≠ position.1 := by
      rintro rfl
      have unused := (stored.taken member).2
      rw [free_fat geometry chain] at unused
      split at unused
      · rename_i hidden
        exact slot.outside sound slot regular owned (Chain.mem_visible hidden)
      · exact slot.claimed.1.not_free unused
    exact ⟨rfl, setData_data_other _ _ apart⟩
  refine ⟨⟨sound', overwrite_sameDirs geometry shaped sound slot regular data cluster data.length,
    fun other used outside apart => ?_, setEntry_entry_same shaped' slot.claimed.2 _,
    fun dir own live ownChain other member apart => ?_,
    overwrite_rechain geometry shaped slot regular owned placed data.length,
    relinked_firstCluster _ (geometry.valid_u32 (firstFree_some stored.found).1) _,
    stored.chain kept⟩, kept⟩
  · exact (overwrite_kept geometry chain data used outside).trans ⟨rfl, setData_data_other _ _ apart⟩
  · rw [setEntry_entry_other shaped' slot.claimed.2 _ apart]
    exact (live.kept geometry sound slot regular data ownChain
      (Fat32Fs.mem_positions.mp member).1).entry

include named

theorem createFile_over_effect {data : List UInt8} (bound : data.length < 2 ^ 32)
    (survives : Survives fs data) (one : demand fs data = 1) :
    volume.Refuses fs (volume.createFile fs path data) ∨
      volume.Puts fs (volume.createFile fs path data) dir (toUpper83 (fileName path))
        (some (.file data)) := by
  have sound := formed.sound
  have slot := targets.slot geometry sound found regular
  obtain ⟨freed, owned⟩ := sound.owns _ slot
  have chain : volume.Chain fs (volume.entry position).firstCluster freed := owned
  have sound' := createFile_sound geometry shaped sound targets.proper data
  rw [targets.createFile_over found regular] at sound' ⊢
  have count := freeCount_free geometry chain
  rcases place_outcome (free_used geometry sound slot) data with ⟨none, outcome⟩ |
    ⟨_, two, _⟩ | ⟨_, cluster, tail, stored⟩
  · -- the file had no cluster to free
    have nothing : Fat32Fs.visible freed = [] := List.eq_nil_of_length_eq_zero (by omega)
    rw [outcome]
    refine .inl (.of_kept geometry formed (.inl rfl) fun other _ => ?_)
    rw [free, geometry.chainOf_eq chain, nothing]
    exact release_kept List.not_mem_nil
  · omega
  · right
    have placed : (volume.free (volume.entry position).firstCluster).place fs data =
        (some cluster, ((volume.free (volume.entry position).firstCluster).place fs data).2) := by
      rw [stored.placed]
    rw [placed] at sound' ⊢
    obtain ⟨renewed, kept⟩ :=
      over_renewed geometry shaped formed targets found regular owned stored sound'
    have whole : (relinked (volume.entry position) cluster data.length).fileSize.toNat =
        data.length := by
      rw [relinked, UInt32.toNat_ofNat', Nat.mod_eq_of_lt bound]
    have few : ([cluster] ++ tail).length ≤ Fat32Fs.maxChain := by
      rw [stored.count.2, one, Fat32Fs.maxChain]
      omega
    exact renewed.puts geometry formed targets named found regular owned few
      ((stored.bytesOf_iff geometry kept renewed.started whole).mpr survives)

omit named in
theorem delete_drops {freed : List Nat} (owned : volume.Owns fs (.slot position) freed) :
    Dropped fs volume ((volume.erase position).free (volume.entry position).firstCluster) position
      freed := by
  have sound := formed.sound
  have slot := targets.slot geometry sound found regular
  have chain : volume.Chain fs (volume.entry position).firstCluster freed := owned
  have inside := slot.claimed.2
  have edit := erase_edit shaped inside
  have edited := edit.sound geometry sound
  have preserves := erase_free_preserves geometry shaped sound inside chain (.inr ⟨slot, owned⟩)
  have freeKept : ∀ other, other ∉ freed → (volume.erase position).Kept
      ((volume.erase position).free (volume.entry position).firstCluster) other := by
    intro other outside
    rw [free, geometry.chainOf_eq (edit.chain_iff.mpr chain)]
    exact release_kept fun hidden => outside (Chain.mem_visible hidden)
  refine ⟨preserves.sound geometry edited, fun other outside apart => ?_, fun owner live => ?_,
    fun dir own live ownChain cluster member =>
      freeKept cluster (live.apart sound ownChain slot regular owned member)⟩
  · have erased : volume.Kept (volume.erase position) other := ⟨rfl, setData_data_other _ _ apart⟩
    exact erased.trans (freeKept other outside)
  · have middle := (preserves.live_iff geometry edited owner).mp live
    rcases edit.live geometry middle with rfl | ⟨different, first⟩
    · have occupied := middle.occupied.2.1
      rw [erase_deleted shaped inside] at occupied
      cases occupied
    · exact ⟨first, different, (preserves.start_eq middle).trans (edit.start_eq different),
        (preserves.directory_eq middle).trans (edit.directory_eq different)⟩

/-- The name is gone from the directory, and the chain of the file is freed. -/
theorem delete_effect :
    volume.Puts fs (volume.delete fs path) dir (toUpper83 (fileName path)) none := by
  have sound := formed.sound
  have live := targets.live geometry sound
  obtain ⟨freed, owned⟩ := sound.owns _ (targets.slot geometry sound found regular)
  have dropped := delete_drops geometry shaped formed targets found regular owned
  have effect : volume.delete fs path = (.ok (),
      (volume.erase position).free (volume.entry position).firstCluster) := by
    simp only [delete, targets.parent, if_neg targets.named, found]
  obtain ⟨own, _, _, ownChain, short, slots, _⟩ := found_split geometry formed targets found
  have order := formed.inOrder dir own live ownChain
  have search := found
  rw [findIn, slots] at search
  have loses := erase_loses shaped ownChain order.zeroTail search
  rw [effect]
  generalize (volume.erase position).free (volume.entry position).firstCluster = volume' at *
  have ownKept := dropped.slots dir own live ownChain
  have chainAfter := loses.chain.kept ownKept
  have slotsAfter : volume'.slotEntries fs own = (volume.erase position).slotEntries fs own :=
    slotEntries_kept ownKept
  have around := file_around geometry formed targets found regular owned fun other _ outside apart =>
    dropped.kept other outside apart
  have nameOf := (file_named found position rfl).2
  have upper : ¬IsDotName (toUpper83 (fileName path)) :=
    fun dot => named.2 ((toUpper83_dots _).mp dot)
  obtain ⟨apart, unique'⟩ := uniqueKeys_cons.mp (order.unique.perm loses.live)
  obtain ⟨_, _, others⟩ := lookup_gained unique' (lookup_eq_none_iff.mpr apart) loses.live
  have recordsBefore : volume.Records fs dir _ :=
    ⟨own, ownChain, Nat.le_succ_of_le short, rfl⟩
  have recordsAfter : volume'.Records fs dir (liveOf ((volume.erase position).slotEntries fs own)) :=
    ⟨own, chainAfter, Nat.le_succ_of_le short, by rw [slotsAfter]⟩
  have here : volume'.child fs dir (toUpper83 (fileName path)) = none := by
    rw [recordsAfter.child geometry, if_neg upper, ← nameOf, lookup_eq_none_iff.mpr apart]
  refine ⟨rfl, ?_, ?_, by rw [here]; rfl, fun record same => ?_⟩
  · refine around.wellFormed geometry formed dropped.sound (fun owner ownerLive =>
      .inr (dropped.live owner ownerLive)) fun other chain' => ?_
    obtain rfl := chain'.unique geometry chainAfter
    rw [slotsAfter]
    refine ⟨⟨loses.zeroTail, unique', fun entry member notDot => ?_⟩, short⟩
    exact order.plain entry (loses.live.mem_iff.mpr (List.mem_cons_of_mem _ member)) notDot
  · refine around.sameBut geometry sound live (fun key other => ?_) (file_named found)
    rw [recordsAfter.child geometry, recordsBefore.child geometry]
    split
    · rfl
    · exact (others key fun same => other (same.trans nameOf)).symm
  · rw [here] at same
    cases same

end File

end Volume

end ArcadiaOs.Fs
