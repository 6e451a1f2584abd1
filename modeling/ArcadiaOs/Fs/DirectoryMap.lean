import ArcadiaOs.Fs.NameLookup

/-!
A directory as a finite map from names to entries.  The map is the list of its live
entries: adding an entry fills a slot, or the first slot of a new cluster, and removing one
marks its slot.
-/

namespace ArcadiaOs.Fs

open Lib

/-! The slots of a directory as a list of entries. -/

/-- Behind an end marker there are zeroed slots only. -/
def ZeroTail (slots : List Fat32DirEntry) : Prop :=
  slots.Pairwise fun slot later => slot.isEnd = true → later = Fat32DirEntry.zeroed

def NoEnd (slots : List Fat32DirEntry) : Prop := ∀ slot ∈ slots, slot.isEnd = false

section Slots

variable {front back : List Fat32DirEntry} {old new : Fat32DirEntry}

theorem NoEnd.any (noEnd : NoEnd front) : front.any Fat32DirEntry.isEnd = false := by
  rw [List.any_eq_false]
  intro slot member
  rw [noEnd slot member]
  exact Bool.false_ne_true

theorem NoEnd.liveOf_append (noEnd : NoEnd front) (back : List Fat32DirEntry) :
    liveOf (front ++ back) = liveOf front ++ liveOf back := by
  rw [Fs.liveOf_append, noEnd.any, if_neg Bool.false_ne_true]

theorem liveOf_zeros (count : Nat) : liveOf (List.replicate count Fat32DirEntry.zeroed) = [] := by
  cases count with
  | zero => rfl
  | succ count =>
      rw [List.replicate_succ]
      exact liveOf_end (by decide)

theorem zeroTail_zeros (count : Nat) : ZeroTail (List.replicate count Fat32DirEntry.zeroed) :=
  List.pairwise_replicate.mpr (.inr fun _ => rfl)

theorem NoEnd.zeroTail_append (noEnd : NoEnd front) (tail : ZeroTail back) :
    ZeroTail (front ++ back) := by
  refine List.pairwise_append.mpr ⟨?_, tail, ?_⟩
  · rw [List.pairwise_iff_forall_sublist]
    intro slot later sub isEnd
    rw [noEnd slot (sub.subset List.mem_cons_self)] at isEnd
    cases isEnd
  · intro slot member later _ isEnd
    rw [noEnd slot member] at isEnd
    cases isEnd

theorem NoEnd.zeroTail_replace (noEnd : NoEnd front) (tail : ZeroTail (front ++ old :: back))
    (notEnd : new.isEnd = false) : ZeroTail (front ++ new :: back) := by
  refine noEnd.zeroTail_append (List.pairwise_cons.mpr ⟨?_, ?_⟩)
  · intro later _ isEnd
    rw [notEnd] at isEnd
    cases isEnd
  · exact (List.pairwise_cons.mp (List.pairwise_append.mp tail).2.1).2

theorem liveOf_vacant (tail : ZeroTail (old :: back)) (vacant : judgeVacant old = .take) :
    liveOf (old :: back) = liveOf back := by
  cases isEnd : old.isEnd with
  | true =>
      have zeros : back = List.replicate back.length Fat32DirEntry.zeroed :=
        List.eq_replicate_iff.mpr ⟨rfl, fun slot member =>
          (List.pairwise_cons.mp tail).1 slot member isEnd⟩
      rw [liveOf_end isEnd, zeros, liveOf_zeros]
  | false =>
      apply liveOf_hidden isEnd
      simp only [judgeVacant, isEnd, Bool.false_or] at vacant
      split at vacant
      · rename_i deleted
        simp only [Fat32DirEntry.isHidden, deleted, Bool.true_or]
      · cases vacant

theorem NoEnd.liveOf_fill (noEnd : NoEnd front) (tail : ZeroTail (front ++ old :: back))
    (vacant : judgeVacant old = .take) (notEnd : new.isEnd = false)
    (shown : new.isHidden = false) :
    (liveOf (front ++ new :: back)).Perm (new :: liveOf (front ++ old :: back)) := by
  rw [noEnd.liveOf_append, noEnd.liveOf_append, liveOf_shown notEnd shown,
    liveOf_vacant (List.pairwise_append.mp tail).2.1 vacant]
  exact List.perm_middle

theorem NoEnd.liveOf_delete (noEnd : NoEnd front) (notEnd : old.isEnd = false)
    (shown : old.isHidden = false) (deleted : new.isDeleted = true) (newNotEnd : new.isEnd = false) :
    (liveOf (front ++ old :: back)).Perm (old :: liveOf (front ++ new :: back)) := by
  have hidden : new.isHidden = true := by
    simp only [Fat32DirEntry.isHidden, deleted, Bool.true_or]
  rw [noEnd.liveOf_append, noEnd.liveOf_append, liveOf_shown notEnd shown,
    liveOf_hidden newNotEnd hidden]
  exact List.perm_middle

end Slots

/-! The slots of a directory on a volume. -/

namespace Fat32Fs

variable {fs : Fat32Fs}

theorem positions_nodup {clusters : List Nat} (distinct : clusters.Nodup) :
    (fs.positions clusters).Nodup := by
  refine List.nodup_flatMap.mpr ⟨fun cluster _ => ?_, ?_⟩
  · exact List.nodup_range.map fun first second same => (Prod.mk.inj same).2
  · apply List.Pairwise.imp _ distinct
    intro first second apart position inFirst inSecond
    obtain ⟨_, _, rfl⟩ := List.mem_map.mp inFirst
    obtain ⟨_, _, same⟩ := List.mem_map.mp inSecond
    exact apart (Prod.mk.inj same).1.symm

theorem positions_first (geometry : fs.Geometry) (cluster : Nat) :
    ∃ back, fs.positions [cluster] = (cluster, 0) :: back := by
  have some : 0 < fs.entriesPerCluster := by
    have sectors := geometry.clusterSectors
    rw [entriesPerCluster, geometry.clusterSize, entrySize]
    omega
  obtain ⟨count, counted⟩ := Nat.exists_eq_succ_of_ne_zero some.ne'
  refine ⟨((List.range count).map Nat.succ).map fun index => (cluster, index), ?_⟩
  rw [positions, List.flatMap_singleton, slotIndices, counted, Nat.succ_eq_add_one,
    List.range_succ_eq_map, List.map_cons]

theorem visible_short {clusters : List Nat} (short : clusters.length ≤ maxChain + 1) :
    visible clusters = clusters := List.take_of_length_le short

end Fat32Fs

namespace Volume

variable {fs : Fat32Fs} {volume volume' : Volume}

def slotEntries (fs : Fat32Fs) (volume : Volume) (clusters : List Nat) : List Fat32DirEntry :=
  (fs.positions clusters).map volume.entry

theorem slotEntries_replaced {clusters : List Nat} (distinct : clusters.Nodup)
    {front back : List Position} {position : Position}
    (split : fs.positions clusters = front ++ position :: back)
    (others : ∀ other, other ≠ position → volume'.entry other = volume.entry other) :
    volume'.slotEntries fs clusters =
      front.map volume.entry ++ volume'.entry position :: back.map volume.entry := by
  have nodup := fs.positions_nodup distinct
  rw [split, List.nodup_middle, List.nodup_cons, List.mem_append, not_or] at nodup
  have kept (part : List Position) (absent : position ∉ part) :
      part.map volume'.entry = part.map volume.entry :=
    List.map_congr_left fun other member => others other fun same => absent (same ▸ member)
  rw [slotEntries, split, List.map_append, List.map_cons, kept front nodup.1.1, kept back nodup.1.2]

variable {dir : Nat} {clusters : List Nat}

structure Gains (fs : Fat32Fs) (volume volume' : Volume) (dir : Nat) (clusters clusters' : List Nat)
    (entry : Fat32DirEntry) : Prop where
  chain : volume'.Chain fs dir clusters'
  zeroTail : ZeroTail (volume'.slotEntries fs clusters')
  live : (liveOf (volume'.slotEntries fs clusters')).Perm
    (entry :: liveOf (volume.slotEntries fs clusters))

theorem skip_vacant {slot : Fat32DirEntry} (skipped : judgeVacant slot = .skip) :
    slot.isEnd = false := by
  simp only [judgeVacant] at skipped
  split at skipped
  · cases skipped
  · rename_i occupied
    simp only [Bool.not_eq_true, Bool.or_eq_false_iff] at occupied
    exact occupied.1

theorem skip_name {name : List UInt8} {slot : Fat32DirEntry} (skipped : judgeName name slot = .skip) :
    slot.isEnd = false := by
  cases isEnd : slot.isEnd with
  | true =>
      rw [judgeName_end name isEnd] at skipped
      cases skipped
  | false => rfl

theorem take_name {name : List UInt8} {slot : Fat32DirEntry} (taken : judgeName name slot = .take) :
    slot.isEnd = false ∧ slot.isHidden = false := by
  cases isEnd : slot.isEnd with
  | true =>
      rw [judgeName_end name isEnd] at taken
      cases taken
  | false =>
      cases hidden : slot.isHidden with
      | true =>
          rw [judgeName_hidden name isEnd hidden] at taken
          cases taken
      | false => exact ⟨rfl, rfl⟩

theorem not_end_of_deleted {slot : Fat32DirEntry} (deleted : slot.isDeleted = true) :
    slot.isEnd = false := by
  simp only [Fat32DirEntry.isDeleted, decide_eq_true_eq] at deleted
  simp only [Fat32DirEntry.isEnd, deleted]
  decide

/-- The slots of a chain around a position that a scan has found in it. -/
theorem scan_split {judge : Fat32DirEntry → Verdict} {position : Position}
    (taken : volume.scan judge (fs.positions clusters) = .taken position) :
    fs.InCluster position.2 ∧ ∃ front back, fs.positions clusters = front ++ position :: back ∧
      volume.slotEntries fs clusters =
        front.map volume.entry ++ volume.entry position :: back.map volume.entry ∧
      (∀ slot ∈ front.map volume.entry, judge slot = .skip) ∧
      judge (volume.entry position) = .take := by
  obtain ⟨front, back, split, skipped, taken⟩ := (scan_taken_iff _ _).mp taken
  have within : position ∈ fs.positions clusters := by
    rw [split]
    exact List.mem_append_right _ List.mem_cons_self
  refine ⟨(Fat32Fs.mem_positions.mp within).2, front, back, split, ?_, ?_, taken⟩
  · rw [slotEntries, split, List.map_append, List.map_cons]
  · intro slot member
    obtain ⟨other, inFront, rfl⟩ := List.mem_map.mp member
    exact skipped other inFront

theorem setEntry_gains (shaped : volume.Shaped fs) (chain : volume.Chain fs dir clusters)
    (zeroTail : ZeroTail (volume.slotEntries fs clusters)) {position : Position}
    (vacant : volume.scan judgeVacant (fs.positions clusters) = .taken position)
    {entry : Fat32DirEntry} (notEnd : entry.isEnd = false) (shown : entry.isHidden = false) :
    Gains fs volume (volume.setEntry position entry) dir clusters clusters entry := by
  obtain ⟨inside, front, back, split, before, skipped, taken⟩ := scan_split vacant
  have others : ∀ other, other ≠ position →
      (volume.setEntry position entry).entry other = volume.entry other :=
    fun other apart => setEntry_entry_other shaped inside entry apart
  have after := slotEntries_replaced chain.distinct split others
  rw [setEntry_entry_same shaped inside] at after
  have noEnd : NoEnd (front.map volume.entry) := fun slot member => skip_vacant (skipped slot member)
  rw [before] at zeroTail
  refine ⟨?_, ?_, ?_⟩
  · exact chain.congr fun _ _ => rfl
  · rw [after]
    exact noEnd.zeroTail_replace zeroTail notEnd
  · rw [after, before]
    exact noEnd.liveOf_fill zeroTail taken notEnd shown

theorem slotEntries_extendDir {last cluster : Nat} (fresh : cluster ∉ clusters) :
    (volume.extendDir fs last cluster).slotEntries fs (clusters ++ [cluster]) =
      volume.slotEntries fs clusters ++
        List.replicate fs.entriesPerCluster Fat32DirEntry.zeroed := by
  rw [slotEntries, Fat32Fs.positions_append, List.map_append]
  congr 1
  · apply List.map_congr_left
    intro position member
    have other : position.1 ≠ cluster := by
      rintro rfl
      exact fresh (Fat32Fs.mem_positions.mp member).1
    exact extendDir_entry_old other
  · refine List.eq_replicate_iff.mpr ⟨?_, ?_⟩
    · simp only [Fat32Fs.positions, Fat32Fs.slotIndices, List.flatMap_cons, List.flatMap_nil,
        List.append_nil, List.length_map, List.length_range]
    · intro slot member
      obtain ⟨position, inside, rfl⟩ := List.mem_map.mp member
      have new : position.1 = cluster :=
        List.mem_singleton.mp (Fat32Fs.mem_positions.mp inside).1
      exact extendDir_entry_new new

theorem growDir_gains (geometry : fs.Geometry) (shaped : volume.Shaped fs)
    (chain : volume.Chain fs dir clusters) (short : clusters.length ≤ Fat32Fs.maxChain + 1)
    (full : volume.scan judgeVacant (fs.positions clusters) = .exhausted) {last cluster : Nat}
    (ended : clusters.getLast? = some last) (found : volume.firstFree fs = some cluster)
    {entry : Fat32DirEntry} (notEnd : entry.isEnd = false) (shown : entry.isHidden = false) :
    Gains fs volume (volume.growDir fs last cluster entry) dir clusters (clusters ++ [cluster])
      entry := by
  have fresh : cluster ∉ clusters := fun member => chain.not_free member (firstFree_some found).2
  have visible := Fat32Fs.visible_short short
  have extended : (volume.extendDir fs last cluster).Chain fs dir (clusters ++ [cluster]) := by
    have shown := extendDir_chain chain (by rw [visible]; exact ended) found
    rw [visible] at shown
    exact shown
  have slots : (volume.extendDir fs last cluster).slotEntries fs (clusters ++ [cluster]) =
      volume.slotEntries fs clusters ++
        List.replicate fs.entriesPerCluster Fat32DirEntry.zeroed := slotEntries_extendDir fresh
  have noEnd : NoEnd (volume.slotEntries fs clusters) := by
    intro slot member
    obtain ⟨position, inside, rfl⟩ := List.mem_map.mp member
    exact skip_vacant ((scan_exhausted_iff _).mp full position inside)
  have zeroTail : ZeroTail ((volume.extendDir fs last cluster).slotEntries fs
      (clusters ++ [cluster])) := by
    rw [slots]
    exact noEnd.zeroTail_append (zeroTail_zeros _)
  have vacant : (volume.extendDir fs last cluster).scan judgeVacant
      (fs.positions (clusters ++ [cluster])) = .taken (cluster, 0) := by
    obtain ⟨back, first⟩ := Fat32Fs.positions_first geometry cluster
    refine (scan_taken_iff _ _).mpr ⟨fs.positions clusters, back, ?_, ?_, ?_⟩
    · rw [Fat32Fs.positions_append, first]
    · intro position member
      have other : position.1 ≠ cluster := by
        rintro rfl
        exact fresh (Fat32Fs.mem_positions.mp member).1
      rw [extendDir_entry_old other]
      exact (scan_exhausted_iff _).mp full position member
    · have cleared : (volume.extendDir fs last cluster).entry (cluster, 0) =
          Fat32DirEntry.zeroed := extendDir_entry_new rfl
      rw [cleared]
      decide
  have gains := setEntry_gains (extendDir_shaped shaped last cluster) extended zeroTail vacant
    notEnd shown
  rw [growDir_eq]
  refine ⟨gains.chain, gains.zeroTail, ?_⟩
  have same : liveOf ((volume.extendDir fs last cluster).slotEntries fs (clusters ++ [cluster])) =
      liveOf (volume.slotEntries fs clusters) := by
    rw [slots, noEnd.liveOf_append, liveOf_zeros, List.append_nil]
  rw [← same]
  exact gains.live

/-- An entry that was put somewhere is one live entry more; only a full directory grows. -/
theorem putEntry_gains (geometry : fs.Geometry) (shaped : volume.Shaped fs)
    (chain : volume.Chain fs dir clusters) (present : 2 ≤ dir)
    (zeroTail : ZeroTail (volume.slotEntries fs clusters))
    (short : clusters.length ≤ Fat32Fs.maxChain) {entry : Fat32DirEntry}
    (notEnd : entry.isEnd = false) (shown : entry.isHidden = false)
    (added : (volume.putEntry fs dir entry).1 = true) :
    ∃ clusters',
      (clusters' = clusters ∧ volume.scan judgeVacant (fs.positions clusters) ≠ .exhausted ∨
        clusters'.length = clusters.length + 1 ∧
          volume.scan judgeVacant (fs.positions clusters) = .exhausted) ∧
      Gains fs volume (volume.putEntry fs dir entry).2 dir clusters clusters' entry := by
  have visible := Fat32Fs.visible_short (Nat.le_succ_of_le short)
  have cases := putEntry_cases geometry chain present entry
  rw [Fat32Fs.slots, visible] at cases
  rcases cases with ⟨position, vacant, put⟩ | ⟨_, _, put⟩ | ⟨full, last, cluster, ended, found, put⟩
  · rw [put]
    have vacancy : volume.scan judgeVacant (fs.positions clusters) ≠ .exhausted := by
      intro exhausted
      rw [vacant] at exhausted
      cases exhausted
    exact ⟨clusters, .inl ⟨rfl, vacancy⟩,
      setEntry_gains shaped chain zeroTail vacant notEnd shown⟩
  · rw [put] at added
    cases added
  · rw [put]
    refine ⟨clusters ++ [cluster], .inr ⟨List.length_append, full⟩, ?_⟩
    exact growDir_gains geometry shaped chain (Nat.le_succ_of_le short) full ended found notEnd shown

structure Loses (fs : Fat32Fs) (volume volume' : Volume) (dir : Nat) (clusters : List Nat)
    (entry : Fat32DirEntry) : Prop where
  chain : volume'.Chain fs dir clusters
  zeroTail : ZeroTail (volume'.slotEntries fs clusters)
  live : (liveOf (volume.slotEntries fs clusters)).Perm
    (entry :: liveOf (volume'.slotEntries fs clusters))

theorem erase_loses (shaped : volume.Shaped fs) (chain : volume.Chain fs dir clusters)
    (zeroTail : ZeroTail (volume.slotEntries fs clusters)) {name : List UInt8} {position : Position}
    (found : volume.find name (fs.positions clusters) = some position) :
    Loses fs volume (volume.erase position) dir clusters (volume.entry position) := by
  obtain ⟨inside, front, back, split, before, skipped, taken⟩ := scan_split (find_eq_some.mp found)
  have others : ∀ other, other ≠ position →
      (volume.erase position).entry other = volume.entry other :=
    fun other apart => erase_entry_other shaped inside apart
  have after := slotEntries_replaced chain.distinct split others
  have deleted := erase_deleted shaped inside
  have notEnd : ((volume.erase position).entry position).isEnd = false := not_end_of_deleted deleted
  have noEnd : NoEnd (front.map volume.entry) := fun slot member => skip_name (skipped slot member)
  obtain ⟨oldNotEnd, oldShown⟩ := take_name taken
  rw [before] at zeroTail
  refine ⟨?_, ?_, ?_⟩
  · exact chain.congr fun _ _ => rfl
  · rw [after]
    exact noEnd.zeroTail_replace zeroTail notEnd
  · rw [after, before]
    exact noEnd.liveOf_delete oldNotEnd oldShown deleted notEnd

end Volume

/-! The directory as the driver shows it. -/

section Answers

variable {fs : Fat32Fs} {dir : Nat} {clusters clusters' : List Nat} {device device' : Device}

theorem Runs.of_ok {ε α : Type} {action : Disk ε α} {volume volume' : Volume} {value : α}
    {result : Except ε α} (runs : Runs fs action volume result volume') (healthy : device.Healthy)
    (holds : fs.view device = volume) (ran : action device = .ok value device') :
    result = .ok value ∧ device'.Healthy ∧ fs.view device' = volume' := by
  obtain ⟨last, answered, lastHealthy, lastHolds⟩ := runs device healthy holds
  rw [ran] at answered
  cases result with
  | ok other =>
      injection answered with value device
      subst value device
      exact ⟨rfl, lastHealthy, lastHolds⟩
  | error reason => cases answered

structure HasEntries (fs : Fat32Fs) (dir : Nat) (device : Device) (clusters : List Nat)
    (entries : List Fat32DirEntry) : Prop where
  healthy : device.Healthy
  chain : (fs.view device).Chain fs dir clusters
  short : clusters.length ≤ Fat32Fs.maxChain + 1
  live : liveOf ((fs.view device).slotEntries fs clusters) = entries

variable {entries entries' : List Fat32DirEntry}

theorem HasEntries.find (has : HasEntries fs dir device clusters entries) (geometry : fs.Geometry)
    (name : List UInt8) : (fs.findEntry dir name).answer device =
      .ok (lookup Fat32DirEntry.fullNameUpper entries name) := by
  have ran := (Fat32Fs.findEntry_runs geometry has.chain name).answer has.healthy rfl
  rw [Fat32Fs.slots, Fat32Fs.visible_short has.short, Volume.find_live] at ran
  rw [ran, ← has.live]
  rfl

theorem HasEntries.list (has : HasEntries fs dir device clusters entries)
    (geometry : fs.Geometry) : (fs.readDirEntries dir).answer device = .ok (shownOf entries) := by
  have ran := (Fat32Fs.readDirEntries_runs geometry has.chain).answer has.healthy rfl
  rw [Fat32Fs.slots, Fat32Fs.visible_short has.short, Volume.listing_live] at ran
  rw [ran, ← has.live]
  rfl

theorem lookup_gained {entry : Fat32DirEntry}
    (unique : UniqueKeys Fat32DirEntry.fullNameUpper entries)
    (absent : lookup Fat32DirEntry.fullNameUpper entries entry.fullNameUpper = none)
    (live : entries'.Perm (entry :: entries)) :
    UniqueKeys Fat32DirEntry.fullNameUpper entries' ∧
      lookup Fat32DirEntry.fullNameUpper entries' entry.fullNameUpper = some entry ∧
      ∀ name, name ≠ entry.fullNameUpper →
        lookup Fat32DirEntry.fullNameUpper entries' name =
          lookup Fat32DirEntry.fullNameUpper entries name := by
  have more : UniqueKeys Fat32DirEntry.fullNameUpper (entry :: entries) :=
    uniqueKeys_cons.mpr ⟨lookup_eq_none_iff.mp absent, unique⟩
  have unique' := more.perm live.symm
  refine ⟨unique', ?_, fun name other => ?_⟩
  · rw [lookup_perm unique' live, lookup_cons_same]
  · rw [lookup_perm unique' live, lookup_cons_other _ other.symm]

theorem shownOf_perm (live : entries'.Perm entries) : (shownOf entries').Perm (shownOf entries) :=
  (live.map _).filter _

end Answers

structure TidyDir (fs : Fat32Fs) (dir : Nat) (device : Device) (clusters : List Nat) : Prop where
  chain : (fs.view device).Chain fs dir clusters
  zeroTail : ZeroTail ((fs.view device).slotEntries fs clusters)
  unique : UniqueKeys Fat32DirEntry.fullNameUpper
    (liveOf ((fs.view device).slotEntries fs clusters))

structure Added (fs : Fat32Fs) (dir : Nat) (entry : Fat32DirEntry) (device device' : Device) :
    Prop where
  found : (fs.findEntry dir entry.fullNameUpper).answer device' = .ok (some entry)
  others : ∀ name, name ≠ entry.fullNameUpper →
    (fs.findEntry dir name).answer device' = (fs.findEntry dir name).answer device
  listed : ∃ before after, (fs.readDirEntries dir).answer device = .ok before ∧
    (fs.readDirEntries dir).answer device' = .ok after ∧
    after.Perm (if IsDotName entry.fullNameUpper then before
      else DirEntryInfo.ofEntry entry :: before)
  tidy : ∃ clusters, TidyDir fs dir device' clusters

structure Removed (fs : Fat32Fs) (dir : Nat) (name : List UInt8) (removed : Fat32DirEntry)
    (device device' : Device) : Prop where
  was : (fs.findEntry dir name).answer device = .ok (some removed)
  gone : (fs.findEntry dir name).answer device' = .ok none
  others : ∀ other, other ≠ name →
    (fs.findEntry dir other).answer device' = (fs.findEntry dir other).answer device
  tidy : ∃ clusters, TidyDir fs dir device' clusters

section Operations

variable {fs : Fat32Fs} {dir : Nat} {clusters : List Nat} {device device' : Device}

theorem addEntry_absent (absent : dir < 2) (entry : Fat32DirEntry) :
    fs.addEntry dir entry device ≠ .ok () device' := by
  intro ran
  obtain ⟨chain, middle, readChain, ran⟩ := Lib.bind_ok.mp ran
  have empty : chain = [] := by
    rw [Fat32Fs.readChain, Fat32Fs.readChainFrom, if_pos absent] at readChain
    injection readChain with same _
    exact same.symm
  subst empty
  obtain ⟨search, _, searched, ran⟩ := Lib.bind_ok.mp ran
  injection searched with same _
  subst same
  obtain ⟨cluster, _, _, ran⟩ := Lib.bind_ok.mp ran
  split at ran
  · cases ran
  · cases ran

variable (geometry : fs.Geometry) (healthy : device.Healthy) (tidy : TidyDir fs dir device clusters)
  (short : clusters.length ≤ Fat32Fs.maxChain)

include geometry healthy tidy short

theorem addEntry_gains {entry : Fat32DirEntry} (notEnd : entry.isEnd = false)
    (shown : entry.isHidden = false) (ran : fs.addEntry dir entry device = .ok () device') :
    ∃ clusters', clusters'.length ≤ clusters.length + 1 ∧ device'.Healthy ∧
      Volume.Gains fs (fs.view device) (fs.view device') dir clusters clusters' entry := by
  have present : 2 ≤ dir := by
    by_contra absent
    exact addEntry_absent (by omega) entry ran
  have shaped : (fs.view device).Shaped fs := fun cluster =>
    fs.length_view_data geometry device cluster
  obtain ⟨answered, healthy', holds'⟩ :=
    (Fat32Fs.enter_runs geometry tidy.chain present entry).of_ok healthy rfl
      (Disk.mapErr_ok ran fun _ => VfsError.ioError)
  rw [Volume.enter_snd] at holds'
  obtain ⟨clusters', grown, gains⟩ := Volume.putEntry_gains geometry shaped tidy.chain present
    tidy.zeroTail short notEnd shown (Volume.enter_ok answered)
  refine ⟨clusters', ?_, healthy', holds' ▸ gains⟩
  rcases grown with ⟨rfl, _⟩ | ⟨length, _⟩
  · exact Nat.le_succ _
  · exact length.le

theorem addEntry_added {entry : Fat32DirEntry} (notEnd : entry.isEnd = false)
    (shown : entry.isHidden = false)
    (absent : (fs.findEntry dir entry.fullNameUpper).answer device = .ok none)
    (ran : fs.addEntry dir entry device = .ok () device') : Added fs dir entry device device' := by
  obtain ⟨clusters', length, healthy', gains⟩ :=
    addEntry_gains geometry healthy tidy short notEnd shown ran
  have before : HasEntries fs dir device clusters _ :=
    ⟨healthy, tidy.chain, Nat.le_succ_of_le short, rfl⟩
  have after : HasEntries fs dir device' clusters' _ :=
    ⟨healthy', gains.chain, by omega, rfl⟩
  rw [before.find geometry, Except.ok.injEq] at absent
  obtain ⟨unique, found, others⟩ := lookup_gained tidy.unique absent gains.live
  refine ⟨?_, fun name other => ?_, ?_, clusters', gains.chain, gains.zeroTail, unique⟩
  · rw [after.find geometry, found]
  · rw [after.find geometry, before.find geometry, others name other]
  · refine ⟨_, _, before.list geometry, after.list geometry, ?_⟩
    have listed := shownOf_perm gains.live
    simp only [shownOf_cons, shown_dots] at listed
    exact listed

theorem removeEntry_removed {name : List UInt8} {removed : Fat32DirEntry}
    (ran : fs.removeEntry dir name device = .ok removed device') :
    Removed fs dir name removed device device' := by
  have shaped : (fs.view device).Shaped fs := fun cluster =>
    fs.length_view_data geometry device cluster
  have visible := Fat32Fs.visible_short (Nat.le_succ_of_le short)
  have before : HasEntries fs dir device clusters _ :=
    ⟨healthy, tidy.chain, Nat.le_succ_of_le short, rfl⟩
  cases found : (fs.view device).find name (fs.slots clusters) with
  | none =>
      obtain ⟨reason, refused⟩ := Fat32Fs.removeEntry_missing geometry tidy.chain found
      cases (refused.of_ok healthy rfl ran).1
  | some position =>
      obtain ⟨same, healthy', holds'⟩ :=
        (Fat32Fs.removeEntry_runs geometry shaped tidy.chain found).of_ok healthy rfl ran
      rw [Except.ok.injEq] at same
      subst same
      rw [Fat32Fs.slots, visible] at found
      have loses := Volume.erase_loses shaped tidy.chain tidy.zeroTail found
      rw [← holds'] at loses
      have after : HasEntries fs dir device' clusters _ :=
        ⟨healthy', loses.chain, Nat.le_succ_of_le short, rfl⟩
      have was : lookup Fat32DirEntry.fullNameUpper
          (liveOf ((fs.view device).slotEntries fs clusters)) name =
          some ((fs.view device).entry position) := by
        rw [Volume.slotEntries, ← Volume.find_live, found]
        rfl
      obtain ⟨_, rfl⟩ := lookup_mem was
      have unique := tidy.unique.perm loses.live
      obtain ⟨apart, unique'⟩ := uniqueKeys_cons.mp unique
      obtain ⟨_, _, others⟩ := lookup_gained unique' (lookup_eq_none_iff.mpr apart) loses.live
      refine ⟨?_, ?_, fun other different => ?_, clusters, loses.chain, loses.zeroTail, unique'⟩
      · rw [before.find geometry, was]
      · rw [after.find geometry, lookup_eq_none_iff.mpr apart]
      · rw [after.find geometry, before.find geometry, others other different]

/-- A directory is a finite map from names to entries: `add_entry` adds one name, `remove_entry`
takes one away, and every other name keeps its entry. -/
theorem directory_finite_map :
    (∀ entry device', entry.isEnd = false → entry.isHidden = false →
      (fs.findEntry dir entry.fullNameUpper).answer device = .ok none →
      fs.addEntry dir entry device = .ok () device' → Added fs dir entry device device') ∧
    (∀ name removed device', fs.removeEntry dir name device = .ok removed device' →
      Removed fs dir name removed device device') := by
  constructor
  · intro entry device' notEnd shown absent ran
    exact addEntry_added geometry healthy tidy short notEnd shown absent ran
  · intro name removed device' ran
    exact removeEntry_removed geometry healthy tidy short ran

end Operations

theorem blank_tidy : TidyDir smallFs 2 blankDevice [2] := by
  have cleared : (smallFs.view blankDevice).data 2 = zeros 512 := by decide +kernel
  have blank : (smallFs.view blankDevice).slotEntries smallFs [2] =
      List.replicate 16 Fat32DirEntry.zeroed := by
    refine List.eq_replicate_iff.mpr ⟨rfl, fun slot member => ?_⟩
    obtain ⟨position, inside, rfl⟩ := List.mem_map.mp member
    have root : position.1 = 2 := List.mem_singleton.mp (Fat32Fs.mem_positions.mp inside).1
    rw [Volume.entry, root, cleared, slotAt_zeros]
  refine ⟨blank_chain, ?_, ?_⟩
  · rw [blank]
    exact zeroTail_zeros 16
  · rw [blank, liveOf_zeros]
    exact List.nodup_nil

/-- A file, a deleted one, a part of a long name, and a second file. -/
def mixedSlots : List Fat32DirEntry :=
  [VfsManager.newEntry [0x41] 0x20 0 0, VfsManager.newEntry [0xE5, 0x43] 0x20 0 0,
    VfsManager.newEntry [0x41, 0x62] 0x0F 0 0, VfsManager.newEntry [0x42] 0x20 0 0]

def mixedDevice : Device where
  sector lba :=
    if lba = 2 then filledSector 0 (mixedSlots.flatMap Fat32DirEntry.toBytes) (by decide +kernel)
    else blankDevice.sector lba
  readable _ := true
  writable _ := true

theorem slotAt_behind {front : List UInt8} {index : Nat} (behind : front.length ≤ index * entrySize)
    (size : Nat) : slotAt (front ++ zeros size) index = Fat32DirEntry.zeroed := by
  rw [← slotAt_zeros 0 0]
  apply Fat32DirEntry.readAt_congr
  intro offset _
  rw [byteAt_append, if_neg (by omega), byteAt_zeros, byteAt_zeros]

theorem mixed_tidy : TidyDir smallFs 2 mixedDevice [2] := by
  have ended : (smallFs.view mixedDevice).fat 2 = fat32Eoc := by decide
  have data : (smallFs.view mixedDevice).data 2 =
      mixedSlots.flatMap Fat32DirEntry.toBytes ++ zeros 384 := by decide +kernel
  have front : ((List.range 4).map fun index => (smallFs.view mixedDevice).entry (2, index)) =
      mixedSlots := by decide +kernel
  have back : ((List.range' 4 12).map fun index => (smallFs.view mixedDevice).entry (2, index)) =
      List.replicate 12 Fat32DirEntry.zeroed := by
    refine List.eq_replicate_iff.mpr ⟨rfl, fun slot member => ?_⟩
    obtain ⟨index, inside, rfl⟩ := List.mem_map.mp member
    have long : (mixedSlots.flatMap Fat32DirEntry.toBytes).length = 128 := by decide +kernel
    have above := (List.mem_range'_1.mp inside).1
    rw [Volume.entry, data]
    refine slotAt_behind ?_ 384
    rw [long, entrySize]
    omega
  have slots : (smallFs.view mixedDevice).slotEntries smallFs [2] =
      mixedSlots ++ List.replicate 12 Fat32DirEntry.zeroed := by
    rw [← front, ← back, ← List.map_append]
    rfl
  have noEnd : NoEnd mixedSlots := by
    unfold NoEnd
    decide
  refine ⟨Volume.chain_single (by decide) ended.ge, ?_, ?_⟩
  · rw [slots]
    exact noEnd.zeroTail_append (zeroTail_zeros 12)
  · rw [slots, noEnd.liveOf_append, liveOf_zeros]
    unfold UniqueKeys
    decide +kernel

/-- Among deleted slots and long names `C` is added and `B` is removed. -/
theorem directory_finite_map_mixed :
    (∃ device', smallFs.addEntry 2 (VfsManager.newEntry [0x43] 0x20 0 0) mixedDevice =
        .ok () device' ∧
      Added smallFs 2 (VfsManager.newEntry [0x43] 0x20 0 0) mixedDevice device') ∧
    ∃ removed device', smallFs.removeEntry 2 [0x42] mixedDevice = .ok removed device' ∧
      Removed smallFs 2 [0x42] removed mixedDevice device' := by
  obtain ⟨adds, removes⟩ :=
    directory_finite_map smallFs_geometry (fun _ => ⟨rfl, rfl⟩) mixed_tidy (by decide)
  have fits : returnsWith (fun _ => true) (smallFs.addEntry 2
      (VfsManager.newEntry [0x43] 0x20 0 0) mixedDevice) = true := by decide +kernel
  have listed : returnsWith (fun _ => true) (smallFs.removeEntry 2 [0x42] mixedDevice) = true := by
    decide +kernel
  obtain ⟨_, device', added, _⟩ := returnsWith_ok fits
  obtain ⟨removed, device'', ran, _⟩ := returnsWith_ok listed
  have absent : (smallFs.findEntry 2 [0x43]).answer mixedDevice = .ok none := by decide +kernel
  exact ⟨⟨device', added, adds _ _ (by decide) (by decide) absent added⟩,
    removed, device'', ran, removes _ _ _ ran⟩

end ArcadiaOs.Fs
