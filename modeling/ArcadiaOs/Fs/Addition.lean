import ArcadiaOs.Fs.Descriptor
import ArcadiaOs.Fs.WellFormed

/-!
A tree with one entry more.  Nothing but the parent's slots and free clusters has
changed, so every lookup that found something finds the same, every other directory lists
the same and every file reads the same.
-/

namespace ArcadiaOs.Fs

open Lib

namespace Volume

variable {fs : Fat32Fs} {volume volume' : Volume}

/-- An entry was added to a directory, and nothing else that is claimed has changed. -/
structure Enters (fs : Fat32Fs) (volume volume' : Volume) (dir : Nat) (entry : Fat32DirEntry) : Prop where
  kept : ∀ clusters, volume.Chain fs dir clusters → ∀ other, volume.Claimed fs other →
    other ∉ clusters → volume.Kept volume' other
  parent : ∀ clusters, volume.Chain fs dir clusters → ∃ clusters',
    (clusters' = clusters ∧ volume.scan judgeVacant (fs.positions clusters) ≠ .exhausted ∨
      clusters'.length = clusters.length + 1 ∧
        volume.scan judgeVacant (fs.positions clusters) = .exhausted) ∧
    Gains fs volume volume' dir clusters clusters' entry

structure Adds (fs : Fat32Fs) (volume volume' : Volume) (dir cluster : Nat) (entry : Fat32DirEntry) :
    Prop extends Enters fs volume volume' dir entry where
  made : volume'.Chain fs cluster [cluster]
  dots : volume'.data cluster = Volume.dots fs cluster dir
  unclaimed : ¬volume.Claimed fs cluster
  live : ∀ owner, volume'.Live fs owner → volume'.start fs owner = cluster ∨
    volume.Live fs owner ∧ volume'.start fs owner = volume.start fs owner ∧
      volume'.directory owner = volume.directory owner

theorem putEntry_kept (geometry : fs.Geometry) {dir : Nat} {clusters : List Nat}
    (chain : volume.Chain fs dir clusters) (present : 2 ≤ dir) (entry : Fat32DirEntry) {other : Nat}
    (outside : other ∉ clusters) (used : volume.fat other ≠ 0) :
    volume.Kept (volume.putEntry fs dir entry).2 other := by
  rcases putEntry_cases geometry chain present entry with ⟨position, vacant, put⟩ |
    ⟨_, _, put⟩ | ⟨_, last, cluster, ended, found, put⟩
  · rw [put]
    obtain ⟨front, back, split, _, _⟩ := (scan_taken_iff _ _).mp vacant
    have member : position ∈ fs.slots clusters := by
      rw [split]
      exact List.mem_append_right _ List.mem_cons_self
    have apart : other ≠ position.1 := by
      rintro rfl
      exact outside (Fat32Fs.mem_positions.mp (slots_subset member)).1
    exact ⟨rfl, setData_data_other _ _ apart⟩
  · rw [put]
    exact ⟨rfl, rfl⟩
  · rw [put, growDir_eq]
    have notLast : other ≠ last := by
      rintro rfl
      exact outside (Chain.mem_visible (List.mem_of_getLast? ended))
    have notNew : other ≠ cluster := by
      rintro rfl
      exact used (firstFree_some found).2
    exact (extendDir_kept notLast notNew).trans ⟨rfl, setData_data_other _ _ notNew⟩

theorem putEntry_enters (geometry : fs.Geometry) {middle : Volume} (shaped : middle.Shaped fs)
    (keeps : ∀ other, volume.fat other ≠ 0 → volume.Kept middle other) (orderly : Orderly fs volume)
    {dir : Nat} (live : volume.LiveDir fs dir)
    (short : ∀ clusters, volume.Chain fs dir clusters → clusters.length ≤ Fat32Fs.maxChain)
    {entry : Fat32DirEntry} (notEnd : entry.isEnd = false) (shown : entry.isHidden = false)
    (added : (middle.putEntry fs dir entry).1 = true) :
    volume.Enters fs (middle.putEntry fs dir entry).2 dir entry := by
  obtain ⟨present, own, ownChain⟩ := live.chain orderly.sound
  have keptOwn : ∀ other ∈ own, volume.Kept middle other :=
    fun other member => keeps other (ownChain.not_free member)
  have slots : middle.slotEntries fs own = volume.slotEntries fs own := slotEntries_kept keptOwn
  refine ⟨fun clusters chain other claimed apart => ?_, fun clusters chain => ?_⟩
  · obtain rfl := chain.unique geometry ownChain
    have first := keeps other claimed.not_free
    refine first.trans (putEntry_kept geometry (ownChain.kept keptOwn) present _ apart ?_)
    rw [first.1]
    exact claimed.not_free
  · obtain rfl := chain.unique geometry ownChain
    obtain ⟨clusters', grown, gains⟩ := putEntry_gains geometry shaped (ownChain.kept keptOwn) present
      (by rw [slots]; exact (orderly.inOrder dir clusters live chain).zeroTail)
      (short clusters chain) notEnd shown added
    refine ⟨clusters', ?_, gains.chain, gains.zeroTail, ?_⟩
    · have same : middle.scan judgeVacant (fs.positions clusters) =
          volume.scan judgeVacant (fs.positions clusters) := by
        refine scan_congr fun position member => ?_
        rw [(keptOwn position.1 (Fat32Fs.mem_positions.mp member).1).entry]
      rw [← same]
      exact grown
    · rw [← slots]
      exact gains.live

namespace Enters

variable {dir : Nat} {entry : Fat32DirEntry} (enters : volume.Enters fs volume' dir entry)
  (geometry : fs.Geometry) (formed : WellFormed fs volume) (live : volume.LiveDir fs dir)

include enters live formed in
theorem kept_owned {owner : Owner} (ownerLive : volume.Live fs owner)
    (elsewhere : volume.start fs owner ≠ dir) {clusters : List Nat}
    (owned : volume.Owns fs owner clusters) :
    ∀ other ∈ clusters, volume.Kept volume' other := by
  obtain ⟨_, own, chain⟩ := live.chain formed.sound
  intro other member
  exact enters.kept own chain other ⟨owner, clusters, ownerLive, owned, member⟩
    (live.disjoint formed.sound chain ownerLive elsewhere owned member)

include enters geometry formed live

theorem elsewhere {owner : Owner} (ownerLive : volume.Live fs owner)
    (elsewhere : volume.start fs owner ≠ dir) {clusters : List Nat}
    (chain : volume'.Chain fs (volume.start fs owner) clusters) :
    volume.Owns fs owner clusters ∧
      volume'.slotEntries fs clusters = volume.slotEntries fs clusters := by
  obtain ⟨held, owned⟩ := formed.sound.owns owner ownerLive
  have kept := enters.kept_owned formed live ownerLive elsewhere owned
  obtain rfl := chain.unique geometry (owned.kept kept)
  exact ⟨owned, slotEntries_kept kept⟩

/-! The parent. -/

variable (plain : entry.Plain)
  (absent : ∀ clusters, volume.Chain fs dir clusters → Lib.lookup Fat32DirEntry.fullNameUpper
    (liveOf (volume.slotEntries fs clusters)) entry.fullNameUpper = none)
include plain absent

theorem parent_inOrder {clusters : List Nat} (chain : volume'.Chain fs dir clusters) :
    InOrder (volume'.slotEntries fs clusters) := by
  obtain ⟨_, own, ownChain⟩ := live.chain formed.sound
  obtain ⟨clusters', _, gains⟩ := enters.parent own ownChain
  have order := formed.inOrder dir own live ownChain
  obtain rfl := chain.unique geometry gains.chain
  obtain ⟨unique, _, _⟩ := lookup_gained order.unique (absent own ownChain) gains.live
  refine ⟨gains.zeroTail, unique, fun other member notDot => ?_⟩
  rcases List.mem_cons.mp (gains.live.mem_iff.mp member) with rfl | old
  · exact plain
  · exact order.plain other old notDot

/-! What is found and listed. -/

omit plain absent geometry in
theorem records_elsewhere {other : Nat} (otherLive : volume.LiveDir fs other) (apart : other ≠ dir)
    {clusters : List Nat} (chain : volume.Chain fs other clusters) :
    volume'.Records fs other (liveOf (volume.slotEntries fs clusters)) := by
  obtain ⟨owner, ownerLive, _, rfl⟩ := otherLive
  have kept := enters.kept_owned formed live ownerLive apart chain
  refine ⟨clusters, chain.kept kept, ?_, ?_⟩
  · exact Nat.le_succ_of_le (formed.short owner clusters ownerLive chain)
  · rw [slotEntries_kept kept]

theorem records_parent {clusters : List Nat} (chain : volume.Chain fs dir clusters) : ∃ entries,
    volume'.Records fs dir entries ∧
      entries.Perm (entry :: liveOf (volume.slotEntries fs clusters)) ∧
      (∀ one ∈ shownEntries entries, PlainName one.fullNameUpper) ∧
      Lib.lookup Fat32DirEntry.fullNameUpper entries entry.fullNameUpper = some entry ∧
      ∀ name, name ≠ entry.fullNameUpper → Lib.lookup Fat32DirEntry.fullNameUpper entries name =
        Lib.lookup Fat32DirEntry.fullNameUpper (liveOf (volume.slotEntries fs clusters)) name := by
  have order := formed.inOrder dir clusters live chain
  obtain ⟨clusters', grown, gains⟩ := enters.parent clusters chain
  obtain ⟨own, ownChain, short, _⟩ := records_of_formed formed live
  obtain rfl := chain.unique geometry ownChain
  obtain ⟨_, found, others⟩ := lookup_gained order.unique (absent clusters chain) gains.live
  refine ⟨_, ⟨clusters', gains.chain, ?_, rfl⟩, gains.live, fun one member => ?_, found, others⟩
  · rcases grown with ⟨rfl, _⟩ | ⟨length, _⟩
    · exact Nat.le_succ_of_le short
    · omega
  · obtain ⟨inside, notDot⟩ := mem_shownEntries.mp member
    rcases List.mem_cons.mp (gains.live.mem_iff.mp inside) with rfl | old
    · exact plain.plainName
    · exact order.plainName one (mem_shownEntries.mpr ⟨old, notDot⟩)

theorem lookup_kept {other : Nat} (otherLive : volume.LiveDir fs other) {component : Path}
    (named : ¬IsDotName component) {info : DirEntryInfo}
    (found : volume.lookup fs other component = some info) :
    volume'.lookup fs other component = some info := by
  obtain ⟨clusters, chain, _, before⟩ := records_of_formed formed otherLive
  have order := formed.inOrder other clusters otherLive chain
  rw [before.lookup geometry order.plainName named] at found
  by_cases same : other = dir
  · subst same
    obtain ⟨entries, after, _, plainNames, _, others⟩ :=
      enters.records_parent geometry formed live plain absent chain
    have different : toUpper83 component ≠ entry.fullNameUpper := by
      intro same
      rw [same, absent clusters chain] at found
      cases found
    rw [after.lookup geometry plainNames named, others _ different, found]
  · have after := enters.records_elsewhere formed live otherLive same chain
    rw [after.lookup geometry order.plainName named, found]

theorem lookup_new {name : Path} (named : ¬IsDotName name)
    (entryName : entry.fullNameUpper = toUpper83 name) :
    volume'.lookup fs dir name = some (DirEntryInfo.ofEntry entry) := by
  obtain ⟨clusters, chain, _, _⟩ := records_of_formed formed live
  obtain ⟨entries, after, _, plainNames, found, _⟩ :=
    enters.records_parent geometry formed live plain absent chain
  rw [after.lookup geometry plainNames named, ← entryName, found]
  rfl

theorem findIn_kept {other : Nat} (otherLive : volume.LiveDir fs other) {path : Path}
    {position : Position} (found : volume.findIn fs other path = some position) :
    (volume'.findIn fs other path).map volume'.entry = some (volume.entry position) := by
  obtain ⟨clusters, chain, _, before⟩ := records_of_formed formed otherLive
  have known := before.findIn geometry path
  rw [found, Option.map_some] at known
  by_cases same : other = dir
  · subst same
    obtain ⟨entries, after, _, _, _, others⟩ :=
      enters.records_parent geometry formed live plain absent chain
    have different : toUpper83 (fileName path) ≠ entry.fullNameUpper := by
      intro same
      rw [same, absent clusters chain] at known
      cases known
    rw [after.findIn geometry, others _ different, known]
  · have after := enters.records_elsewhere formed live otherLive same chain
    rw [after.findIn geometry, known]

theorem walk_after {path : List Path} {target : Nat}
    (proper : volume.throughDirs fs path fs.bpb.rootCluster.toNat = true)
    (reached : volume.walk fs path fs.bpb.rootCluster.toNat = .ok target) :
    volume'.throughDirs fs path fs.bpb.rootCluster.toNat = true ∧
      volume'.walk fs path fs.bpb.rootCluster.toNat = .ok target :=
  walk_kept geometry formed.sound
    (fun _ _ _ otherLive named found =>
      enters.lookup_kept geometry formed live plain absent otherLive named found)
    liveDir_root proper reached

theorem readContent_kept {path : Path} {position : Position} (names : volume.Names fs path position)
    (regular : (volume.entry position).isDirectory = false) :
    volume'.ProperPath fs path ∧ ∃ content, volume.readContent fs path = .ok content ∧
      volume'.readContent fs path = .ok content := by
  obtain ⟨parent, parentLive, reached, found⟩ := names.parent geometry formed.sound
  obtain ⟨proper, after⟩ := enters.walk_after geometry formed live plain absent names.proper reached
  have slot := names.live geometry formed.sound regular
  obtain ⟨clusters, owned⟩ := formed.sound.owns _ slot
  have bytes : volume'.bytesOf (volume.entry position) = volume.bytesOf (volume.entry position) := by
    obtain ⟨_, own, chain⟩ := live.chain formed.sound
    refine bytesOf_kept geometry owned fun other member => ?_
    refine enters.kept own chain other ⟨_, clusters, slot, owned, member⟩ fun inside => ?_
    exact live.apart formed.sound chain slot regular owned inside member
  have known := enters.findIn_kept geometry formed live plain absent parentLive found
  obtain ⟨place, found', same⟩ := Option.map_eq_some_iff.mp known
  have after' : volume'.parentOf fs path = .ok parent := after
  refine ⟨proper, volume.bytesOf (volume.entry position), ?_, ?_⟩
  · simp only [readContent, reached, if_neg names.named, found, regular, Bool.false_eq_true,
      if_false]
  · simp only [readContent, after', if_neg names.named, found', same, regular, Bool.false_eq_true,
      if_false, bytes]

end Enters

namespace Adds

variable {dir cluster : Nat} {entry : Fat32DirEntry}
  (adds : volume.Adds fs volume' dir cluster entry) (geometry : fs.Geometry)
  (formed : WellFormed fs volume) (live : volume.LiveDir fs dir)

include adds in
theorem liveDir {other : Nat} (otherLive : volume'.LiveDir fs other) :
    other = cluster ∨ volume.LiveDir fs other := by
  obtain ⟨owner, ownerLive, directory, rfl⟩ := otherLive
  rcases adds.live owner ownerLive with started | ⟨before, start, kind⟩
  · exact .inl started
  · exact .inr ⟨owner, before, kind ▸ directory, start.symm⟩

include adds geometry formed live

/-- A chain gets longer than the bound only when the parent was as long as the bound and full. -/
theorem short {owner : Owner} {clusters : List Nat} (ownerLive : volume'.Live fs owner)
    (owned : volume'.Owns fs owner clusters) :
    clusters.length ≤ Fat32Fs.maxChain ∨ volume'.start fs owner = dir ∧
      clusters.length = Fat32Fs.maxChain + 1 ∧ ∃ before, volume.Chain fs dir before ∧
        before.length = Fat32Fs.maxChain ∧
        volume.scan judgeVacant (fs.positions before) = .exhausted := by
  rcases adds.live owner ownerLive with started | ⟨before, start, _⟩
  · rw [Owns, started] at owned
    obtain rfl := owned.unique geometry adds.made
    exact .inl (show 1 ≤ Fat32Fs.maxChain by decide)
  · rw [start]
    rw [Owns, start] at owned
    by_cases same : volume.start fs owner = dir
    · rw [same] at owned
      obtain ⟨_, own, ownChain⟩ := live.chain formed.sound
      have bound := formed.short owner own before (by rw [Owns, same]; exact ownChain)
      obtain ⟨clusters', grown, gains⟩ := adds.parent own ownChain
      obtain rfl := owned.unique geometry gains.chain
      rcases grown with ⟨rfl, _⟩ | ⟨length, full⟩
      · exact .inl bound
      · by_cases reached : own.length = Fat32Fs.maxChain
        · exact .inr ⟨same, by omega, own, ownChain, reached, full⟩
        · exact .inl (by omega)
    · exact .inl (formed.short owner clusters before
        (adds.toEnters.elsewhere geometry formed live before same owned).1)

variable (plain : entry.Plain)
  (absent : ∀ clusters, volume.Chain fs dir clusters → Lib.lookup Fat32DirEntry.fullNameUpper
    (liveOf (volume.slotEntries fs clusters)) entry.fullNameUpper = none)
include plain absent

theorem orderly (sound : volume'.Sound fs) : Orderly fs volume' := by
  refine ⟨sound, fun other clusters otherLive chain => ?_⟩
  rcases adds.liveDir otherLive with rfl | before
  · obtain rfl := chain.unique geometry adds.made
    exact dots_inOrder geometry adds.dots
  · by_cases same : other = dir
    · subst same
      exact adds.toEnters.parent_inOrder geometry formed live plain absent chain
    · obtain ⟨owner, ownerLive, directory, rfl⟩ := before
      obtain ⟨owned, slots⟩ := adds.toEnters.elsewhere geometry formed live ownerLive same chain
      rw [slots]
      exact formed.inOrder _ clusters ⟨owner, ownerLive, directory, rfl⟩ owned

end Adds

end Volume

section Effect

variable {fs : Fat32Fs} {device device' : Device} {dir cluster : Nat} {entry : Fat32DirEntry}
  (adds : (fs.view device).Adds fs (fs.view device') dir cluster entry) (geometry : fs.Geometry)
  (healthy' : device'.Healthy)

include adds geometry healthy' in
theorem find_dots (bound : cluster < 2 ^ 32) (dirBound : dir < 2 ^ 32) :
    (∃ entry, (fs.findEntry cluster [0x2E]).answer device' = .ok (some entry) ∧
      entry.firstCluster = cluster) ∧
    ∃ entry, (fs.findEntry cluster [0x2E, 0x2E]).answer device' = .ok (some entry) ∧
      entry.firstCluster = dir := by
  have dots := Volume.dots_liveOf geometry adds.dots
  obtain ⟨_, _, selfName, _⟩ := dotEntry_live [0x2E] (.inl rfl) cluster
  obtain ⟨_, _, upName, _⟩ := dotEntry_live [0x2E, 0x2E] (.inr rfl) dir
  have has : HasEntries fs cluster device' [cluster] _ :=
    ⟨healthy', adds.made, show 1 ≤ Fat32Fs.maxChain + 1 by decide, dots⟩
  have unique := (Volume.dots_inOrder geometry adds.dots).unique
  rw [dots] at unique
  constructor
  · refine ⟨VfsManager.dotEntry [0x2E] cluster, ?_, dotEntry_firstCluster _ bound⟩
    rw [has.find geometry, (lookup_eq_some_iff unique).mpr ⟨List.mem_cons_self, selfName⟩]
  · refine ⟨VfsManager.dotEntry [0x2E, 0x2E] dir, ?_, dotEntry_firstCluster _ dirBound⟩
    have member := List.mem_cons_of_mem (VfsManager.dotEntry [0x2E] cluster)
      (List.mem_singleton_self (VfsManager.dotEntry [0x2E, 0x2E] dir))
    rw [has.find geometry, (lookup_eq_some_iff unique).mpr ⟨member, upName⟩]

include adds geometry in
theorem listing_dots :
    (fs.view device').listing ((fs.view device').slotsOf fs cluster) = [] := by
  obtain ⟨_, _, selfName, _⟩ := dotEntry_live [0x2E] (.inl rfl) cluster
  obtain ⟨_, _, upName, _⟩ := dotEntry_live [0x2E, 0x2E] (.inr rfl) dir
  have records : (fs.view device').Records fs cluster _ :=
    ⟨[cluster], adds.made, show 1 ≤ Fat32Fs.maxChain + 1 by decide,
      Volume.dots_liveOf geometry adds.dots⟩
  rw [records.listing geometry, shownOf_cons, if_pos, shownOf_cons, if_pos]
  · rfl
  · rw [shown_dots, upName]
    exact .inr rfl
  · rw [shown_dots, selfName]
    exact .inl rfl

end Effect

section Effect

variable {fs : Fat32Fs} {device device' : Device} {dir : Nat} {entry : Fat32DirEntry}
  (enters : (fs.view device).Enters fs (fs.view device') dir entry) (geometry : fs.Geometry)
  {vfs : VfsManager} (mounted : Mounted fs vfs) (healthy : device.Healthy)
  (healthy' : device'.Healthy) (formed : WellFormed fs (fs.view device))
  (sound' : (fs.view device').Sound fs)
  (live : (fs.view device).LiveDir fs dir) (plain : entry.Plain)
  (absent : ∀ clusters, (fs.view device).Chain fs dir clusters →
    Lib.lookup Fat32DirEntry.fullNameUpper (liveOf ((fs.view device).slotEntries fs clusters))
      entry.fullNameUpper = none)
include enters geometry mounted healthy healthy' formed sound' live plain absent

theorem listDir_parent (named : ¬IsDotName entry.fullNameUpper) {path : Path}
    (leads : Leads fs (fs.view device) path dir) : ∃ before after,
      (vfs.listDir path).answer device = .ok before ∧
      (vfs.listDir path).answer device' = .ok after ∧
      after.Perm (nodeOf (DirEntryInfo.ofEntry entry) :: before) := by
  obtain ⟨through, walked⟩ := enters.walk_after geometry formed live plain absent leads.1 leads.2
  obtain ⟨clusters, chain, _, before⟩ := Volume.records_of_formed formed live
  obtain ⟨entries, after, perm, _⟩ := enters.records_parent geometry formed live plain absent chain
  refine ⟨_, _, listDir_leads geometry mounted healthy formed.sound leads,
    listDir_leads geometry mounted healthy' sound' ⟨through, walked⟩, ?_⟩
  have shown := (shownOf_perm perm).map nodeOf
  rw [shownOf_cons, if_neg (by rw [shown_dots]; exact named), List.map_cons] at shown
  rw [before.listing geometry, after.listing geometry]
  exact shown

theorem listDir_elsewhere {path : Path} {target : Nat}
    (leads : Leads fs (fs.view device) path target) (apart : target ≠ dir) :
    (vfs.listDir path).answer device' = (vfs.listDir path).answer device := by
  obtain ⟨through, walked⟩ := enters.walk_after geometry formed live plain absent leads.1 leads.2
  have targetLive := Volume.walk_liveDir geometry formed.sound Volume.liveDir_root leads.1 leads.2
  obtain ⟨clusters, chain, _, before⟩ := Volume.records_of_formed formed targetLive
  have after := enters.records_elsewhere formed live targetLive apart chain
  rw [listDir_leads geometry mounted healthy formed.sound leads,
    listDir_leads geometry mounted healthy' sound' ⟨through, walked⟩, before.listing geometry,
    after.listing geometry]

theorem readFileContent_kept {path : Path} {position : Position}
    (names : (fs.view device).Names fs path position)
    (regular : ((fs.view device).entry position).isDirectory = false) :
    (vfs.readFileContent path).answer device' = (vfs.readFileContent path).answer device := by
  obtain ⟨proper, content, read, readAfter⟩ :=
    enters.readContent_kept geometry formed live plain absent names regular
  have before := mounted.readFileContent_runs geometry formed.sound names.proper
  have after := mounted.readFileContent_runs geometry sound' proper
  rw [read] at before
  rw [readAfter] at after
  rw [before.answer healthy rfl, after.answer healthy' rfl]

end Effect

end ArcadiaOs.Fs
