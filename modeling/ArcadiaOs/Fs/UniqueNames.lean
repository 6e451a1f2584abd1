import ArcadiaOs.Fs.ClusterOwnership

/-!
The names of a directory.  A name is looked up as it was typed and stored cut to 8.3,
so the lookup can miss the entry that already has the stored name.
-/

namespace ArcadiaOs.Fs

open Lib

/-- A slot with an entry in it: no end marker, not deleted, no long name and no volume label. -/
def Shown (entry : Fat32DirEntry) : Prop :=
  entry.isEnd = false ∧ entry.isDeleted = false ∧ entry.isLongName = false ∧
    entry.isVolumeLabel = false

instance (entry : Fat32DirEntry) : Decidable (Shown entry) := inferInstanceAs (Decidable (_ ∧ _))

/-- Two entries under one name on the disk. -/
def Clashes (left right : Fat32DirEntry) : Prop :=
  Shown left ∧ Shown right ∧ left.name = right.name ∧ left.ext = right.ext

theorem Clashes.symm {left right : Fat32DirEntry} (clash : Clashes left right) :
    Clashes right left := by
  obtain ⟨shownLeft, shownRight, name, ext⟩ := clash
  exact ⟨shownRight, shownLeft, name.symm, ext.symm⟩

theorem SameName.shown {left right : Fat32DirEntry} (same : SameName left right) :
    Shown left ↔ Shown right := by
  obtain ⟨name, ext, attributes, _⟩ := same
  cases left
  cases right
  cases name
  cases ext
  cases attributes
  exact Iff.rfl

theorem not_shown_zeroed : ¬Shown Fat32DirEntry.zeroed := by decide

namespace Volume

variable {fs : Fat32Fs} {volume volume' : Volume}

def Distinct (fs : Fat32Fs) (volume : Volume) (clusters : List Nat) : Prop :=
  ∀ position ∈ fs.positions clusters, ∀ other ∈ fs.positions clusters, position ≠ other →
    ¬Clashes (volume.entry position) (volume.entry other)

/-- No directory of the tree holds two entries with one name. -/
def UniqueNames (fs : Fat32Fs) (volume : Volume) : Prop :=
  ∀ owner clusters, volume.Live fs owner → volume.directory owner = true →
    volume.Owns fs owner clusters → volume.Distinct fs clusters

theorem Distinct.of_slots {clusters clusters' : List Nat} (distinct : volume.Distinct fs clusters)
    (slots : ∀ position ∈ fs.positions clusters', Shown (volume'.entry position) →
      position ∈ fs.positions clusters ∧
        SameName (volume'.entry position) (volume.entry position)) :
    volume'.Distinct fs clusters' := by
  intro position member other memberOther apart clash
  obtain ⟨shown, shownOther, name, ext⟩ := clash
  obtain ⟨before, same⟩ := slots position member shown
  obtain ⟨beforeOther, sameOther⟩ := slots other memberOther shownOther
  refine distinct position before other beforeOther apart ⟨same.shown.mp shown,
    sameOther.shown.mp shownOther, ?_, ?_⟩
  · exact same.name.symm.trans (name.trans sameOther.name)
  · exact same.ext.symm.trans (ext.trans sameOther.ext)

theorem UniqueNames.preserved (geometry : fs.Geometry) (sound : volume.Sound fs)
    (unique : volume.UniqueNames fs) (preserves : volume.Preserves fs volume')
    (named : ∀ position, volume.Claimed fs position.1 →
      SameName (volume'.entry position) (volume.entry position)) : volume'.UniqueNames fs := by
  intro owner clusters live directory owned
  have before := (preserves.live_iff geometry sound owner).mp live
  rw [preserves.directory_eq before] at directory
  rw [preserves.owns_iff geometry sound before] at owned
  refine (unique owner clusters before directory owned).of_slots fun position member _ => ⟨member, ?_⟩
  exact named position ⟨owner, clusters, before, owned, (Fat32Fs.mem_positions.mp member).1⟩

theorem UniqueNames.of_kept (geometry : fs.Geometry) (sound : volume.Sound fs)
    (unique : volume.UniqueNames fs)
    (kept : ∀ cluster, volume.Claimed fs cluster → volume.Kept volume' cluster) :
    volume'.UniqueNames fs := by
  refine unique.preserved geometry sound (Preserves.of_agree kept) fun position claimed => ?_
  rw [(kept position.1 claimed).entry]
  exact SameName.refl _

theorem Rechain.uniqueNames {owner : Owner} {clusters clusters' : List Nat}
    (rechain : volume.Rechain fs volume' owner clusters clusters') (geometry : fs.Geometry)
    (sound : volume.Sound fs) (unique : volume.UniqueNames fs)
    (named : ∀ position, volume.Claimed fs position.1 →
      position.1 ∉ clusters ∨ volume.directory owner = true →
      SameName (volume'.entry position) (volume.entry position))
    (blank : volume.directory owner = true → ∀ position ∈ fs.positions clusters',
      ¬volume.Claimed fs position.1 → ¬Shown (volume'.entry position)) :
    volume'.UniqueNames fs := by
  intro other others live directory owned
  have before := rechain.live_of sound geometry live
  rw [rechain.directory_eq sound before] at directory
  by_cases same : owner = other
  · subst same
    obtain rfl := owned.unique geometry rechain.after
    refine (unique owner clusters before directory rechain.before).of_slots ?_
    intro position member shown
    obtain ⟨inside, bound⟩ := Fat32Fs.mem_positions.mp member
    rcases rechain.within position.1 inside with old | fresh
    · have claimed : volume.Claimed fs position.1 := ⟨owner, clusters, before, rechain.before, old⟩
      exact ⟨Fat32Fs.mem_positions.mpr ⟨old, bound⟩, named position claimed (.inr directory)⟩
    · exact absurd shown (blank directory position member fresh)
  · rw [rechain.owns_iff sound geometry before same] at owned
    refine (unique other others before directory owned).of_slots fun position member _ => ⟨member, ?_⟩
    obtain ⟨inside, _⟩ := Fat32Fs.mem_positions.mp member
    refine named position ⟨other, others, before, owned, inside⟩ (.inl fun old => ?_)
    exact sound.apart owner other rechain.live before same clusters others rechain.before owned old
      inside

theorem SlotEdit.uniqueNames {position : Position} (edit : volume.SlotEdit fs volume' position)
    (geometry : fs.Geometry) (unique : volume.UniqueNames fs)
    (apart : ∀ owner clusters, volume.Live fs owner → volume.directory owner = true →
      volume.Owns fs owner clusters → position ∈ fs.positions clusters →
      ∀ other ∈ fs.positions clusters, ¬Clashes (volume'.entry position) (volume.entry other))
    (inner : Occupied (volume'.entry position) → (volume'.entry position).isDirectory = true →
      ∀ clusters, volume.Chain fs (volume'.entry position).firstCluster clusters →
        volume'.Distinct fs clusters) : volume'.UniqueNames fs := by
  intro owner clusters live directory owned
  rcases edit.live geometry live with rfl | ⟨different, before⟩
  · exact inner live.occupied directory clusters (edit.chain_iff.mp owned)
  rw [edit.directory_eq different] at directory
  rw [edit.owns_iff different] at owned
  intro left memberLeft right memberRight two clash
  by_cases leftHere : left = position
  · subst leftHere
    rw [edit.entries right fun same => two same.symm] at clash
    exact apart owner clusters before directory owned memberLeft right memberRight clash
  by_cases rightHere : right = position
  · subst rightHere
    rw [edit.entries left leftHere] at clash
    exact apart owner clusters before directory owned memberRight left memberLeft clash.symm
  · rw [edit.entries left leftHere, edit.entries right rightHere] at clash
    exact unique owner clusters before directory owned left memberLeft right memberRight two
      clash

def NewName (fs : Fat32Fs) (volume : Volume) (dir : Nat) (entry : Fat32DirEntry) : Prop :=
  ∀ clusters, volume.Chain fs dir clusters → ∀ position ∈ fs.positions clusters,
    ¬Clashes entry (volume.entry position)

theorem Entered.uniqueNames {middle : Volume} {owner : Owner} {clusters clusters' : List Nat}
    {position : Position} {entry : Fat32DirEntry}
    (entered : volume.Entered fs middle volume' owner clusters clusters' position entry)
    (geometry : fs.Geometry) (sound : volume.Sound fs) (unique : volume.UniqueNames fs)
    (fresh : volume.NewName fs (volume.start fs owner) entry)
    (recordable : volume.Recordable fs entry)
    (inner : entry.isDirectory = true → ∀ others, volume.Chain fs entry.firstCluster others →
      volume.Distinct fs others) : volume'.UniqueNames fs := by
  obtain ⟨rechain, entries, kept, blank, within, edit, holds⟩ := entered
  have uniqueMiddle : middle.UniqueNames fs := by
    refine rechain.uniqueNames geometry sound unique (fun place claimed _ => ?_) fun _ place member
      unclaimed => ?_
    · rw [entries place claimed]
      exact SameName.refl _
    · rw [blank place member unclaimed]
      exact not_shown_zeroed
  refine edit.uniqueNames geometry uniqueMiddle ?_ ?_
  · intro other others live directory owned inside place member clash
    have before := rechain.live_of sound geometry live
    by_cases same : owner = other
    · subst same
      obtain rfl := owned.unique geometry rechain.after
      rw [holds] at clash
      by_cases claimed : volume.Claimed fs place.1
      · rw [entries place claimed] at clash
        obtain ⟨insidePlace, bound⟩ := Fat32Fs.mem_positions.mp member
        have old : place.1 ∈ clusters :=
          (rechain.within place.1 insidePlace).resolve_right fun unclaimed => unclaimed claimed
        exact fresh clusters rechain.before place (Fat32Fs.mem_positions.mpr ⟨old, bound⟩) clash
      · rw [blank place member claimed] at clash
        exact not_shown_zeroed clash.2.1
    · rw [rechain.owns_iff sound geometry before same] at owned
      exact rechain.disjoint sound before same owned (Fat32Fs.mem_positions.mp within).1
        (Fat32Fs.mem_positions.mp inside).1
  · intro occupied directory others chain
    obtain ⟨clustersIn, chainIn, empty, _⟩ := edit.recorded occupied
    obtain rfl := chain.unique geometry chainIn
    have outside : position ∉ fs.positions others :=
      fun member => (empty directory).2 position member occupied
    rw [holds] at occupied directory chain
    obtain ⟨own, ownChain, _, unclaimed⟩ := recordable occupied
    have keptOwn : ∀ cluster ∈ own, volume.Kept middle cluster := fun cluster member =>
      kept cluster (ownChain.not_free member) (unclaimed cluster member)
    obtain rfl := chain.unique geometry (ownChain.kept keptOwn)
    refine (inner directory others ownChain).of_slots fun place member _ => ⟨member, ?_⟩
    rw [edit.entries place (ne_of_mem_of_not_mem member outside),
      (keptOwn place.1 (Fat32Fs.mem_positions.mp member).1).entry]
    exact SameName.refl _

theorem putEntry_uniqueNames (geometry : fs.Geometry) (shaped : volume.Shaped fs)
    (sound : volume.Sound fs) (unique : volume.UniqueNames fs) {dir : Nat}
    (live : volume.LiveDir fs dir) {entry : Fat32DirEntry} (fresh : volume.NewName fs dir entry)
    (recordable : volume.Recordable fs entry)
    (inner : entry.isDirectory = true → ∀ others, volume.Chain fs entry.firstCluster others →
      volume.Distinct fs others) : (volume.putEntry fs dir entry).2.UniqueNames fs := by
  obtain ⟨_, clusters, chain⟩ := live.chain sound
  obtain ⟨owner, ownerLive, directory, rfl⟩ := live
  rcases putEntry_entered geometry shaped sound ownerLive directory chain recordable with
    unchanged | ⟨middle, clusters', position, entered⟩
  · rw [unchanged]
    exact unique
  · exact entered.uniqueNames geometry sound unique fresh recordable inner

def Taken (fs : Fat32Fs) (volume : Volume) (dir : Nat) (nameUpper : Path) : Prop :=
  ∃ clusters, volume.Chain fs dir clusters ∧ ∃ position ∈ fs.positions clusters,
    Shown (volume.entry position) ∧
      (volume.entry position).name = (Fat32DirEntry.zeroed.setName83 nameUpper).name ∧
      (volume.entry position).ext = (Fat32DirEntry.zeroed.setName83 nameUpper).ext

/-- When the stored name of the last component is taken, the lookup of the component finds an
entry. -/
def Seen (fs : Fat32Fs) (volume : Volume) (path : Path) : Prop :=
  ∀ dir, volume.parentOf fs path = .ok dir → volume.Taken fs dir (toUpper83 (fileName path)) →
    volume.findIn fs dir path ≠ none

theorem Seen.newName {path : Path} (seen : volume.Seen fs path) {dir : Nat}
    (parent : volume.parentOf fs path = .ok dir) (absent : volume.findIn fs dir path = none)
    (attributes : UInt8) (cluster size : Nat) : volume.NewName fs dir
      (VfsManager.newEntry (toUpper83 (fileName path)) attributes cluster size) := by
  intro clusters chain position member clash
  obtain ⟨_, shown, name, ext⟩ := clash
  exact seen dir parent ⟨clusters, chain, position, member, shown, name.symm, ext.symm⟩ absent

theorem placed_kept {data : List UInt8} {answer : Option Nat}
    (outcome : volume.place fs data = (answer, volume')) {cluster : Nat}
    (claimed : volume.Claimed fs cluster) : volume.Kept volume' cluster := by
  have same := place_kept fs volume data claimed.not_free
  rw [outcome] at same
  exact same

section Calls

variable (geometry : fs.Geometry) (shaped : volume.Shaped fs) (sound : volume.Sound fs)
  (unique : volume.UniqueNames fs)
include geometry sound

theorem NewName.kept {dir : Nat} (live : volume.LiveDir fs dir) {entry : Fat32DirEntry}
    (fresh : volume.NewName fs dir entry)
    (kept : ∀ cluster, volume.Claimed fs cluster → volume.Kept volume' cluster) :
    volume'.NewName fs dir entry := by
  intro clusters chain position member
  obtain ⟨_, before, owned⟩ := live.chain sound
  have claimed : ∀ cluster ∈ before, volume.Claimed fs cluster :=
    fun cluster member => live.claimed owned member
  obtain rfl := chain.unique geometry (owned.kept fun cluster member => kept cluster (claimed cluster member))
  rw [(kept position.1 (claimed position.1 (Fat32Fs.mem_positions.mp member).1)).entry]
  exact fresh clusters owned position member

include shaped unique

theorem place_enter_uniqueNames {dir : Nat} (live : volume.LiveDir fs dir) {data : List UInt8}
    {start size : Nat} {nameUpper : Path}
    (fresh : volume.NewName fs dir (VfsManager.newEntry nameUpper 0x20 start size))
    (outcome : volume.place fs data = (some start, volume')) :
    (volume'.enter fs dir (VfsManager.newEntry nameUpper 0x20 start size)).2.UniqueNames fs := by
  have kept : ∀ cluster, volume.Claimed fs cluster → volume.Kept volume' cluster :=
    fun cluster claimed => placed_kept outcome claimed
  have shaped' := place_shaped shaped data
  rw [outcome] at shaped'
  have preserves := Preserves.of_agree kept
  obtain ⟨clusters, placed⟩ := place_placed outcome
  rw [enter_snd]
  refine putEntry_uniqueNames geometry shaped' (preserves.sound geometry sound)
    (unique.of_kept geometry sound kept) (live.preserved preserves geometry sound)
    (fresh.kept geometry sound live kept) (placed.recordable geometry sound nameUpper size) ?_
  intro directory
  rw [newEntry_regular] at directory
  cases directory

theorem createFile_uniqueNames {path : Path} (proper : volume.ProperPath fs path)
    (seen : volume.Seen fs path) (data : List UInt8) :
    (volume.createFile fs path data).2.UniqueNames fs := by
  simp only [createFile]
  cases parent : volume.parentOf fs path with
  | error reason => exact unique
  | ok dir =>
      have live := Mounted.parent_live geometry sound proper parent
      simp only
      split
      · exact unique
      cases found : volume.findIn fs dir path with
      | none =>
          simp only
          cases outcome : volume.place fs data with
          | mk answer volume' =>
              cases answer with
              | none =>
                  exact unique.of_kept geometry sound fun cluster claimed =>
                    placed_kept outcome claimed
              | some start =>
                  exact place_enter_uniqueNames geometry shaped sound unique live
                    (seen.newName parent found _ _ _) outcome
      | some position =>
          simp only
          cases regular : (volume.entry position).isDirectory with
          | true => exact unique
          | false =>
              simp only [Bool.false_eq_true, if_false]
              have slot := live.found geometry sound found (not_dot_of_regular regular)
              obtain ⟨clusters, owned⟩ := sound.owns _ slot
              have kept : ∀ cluster, volume.Claimed fs cluster → cluster ∉ clusters → volume.Kept
                  ((volume.free (volume.entry position).firstCluster).place fs data).2 cluster :=
                fun cluster claimed outside =>
                  overwrite_kept geometry owned data claimed.not_free outside
              have nothing : volume.directory (.slot position) ≠ true := by
                rw [directory, regular]
                exact Bool.false_ne_true
              cases outcome : (volume.free (volume.entry position).firstCluster).place fs data with
              | mk answer volume' =>
                  rw [outcome] at kept
                  cases answer with
                  | none =>
                      have short := overwrite_short_rechain geometry sound slot regular owned data
                      rw [outcome] at short
                      rcases short rfl with rfl | rechain
                      · refine unique.of_kept geometry sound fun cluster claimed =>
                          kept cluster claimed ?_
                        intro lost
                        cases lost
                      · refine rechain.uniqueNames geometry sound unique ?_
                          fun directory => absurd directory nothing
                        intro other claimed outside
                        rw [(kept other.1 claimed (outside.resolve_right nothing)).entry]
                        exact SameName.refl _
                  | some start =>
                      have shaped' := place_shaped
                        (free_shaped shaped (volume.entry position).firstCluster) data
                      rw [outcome] at shaped'
                      obtain ⟨clusters', rechain⟩ := overwrite_rechain geometry shaped slot regular
                        owned outcome data.length
                      refine rechain.uniqueNames geometry sound unique ?_
                        fun directory => absurd directory nothing
                      intro other claimed outside
                      by_cases same : other = position
                      · subst same
                        rw [setEntry_entry_same shaped' slot.claimed.2]
                        refine ⟨rfl, rfl, rfl, fun directory => ?_⟩
                        rw [regular] at directory
                        cases directory
                      · rw [setEntry_entry_other shaped' slot.claimed.2 _ same,
                          (kept other.1 claimed (outside.resolve_right nothing)).entry]
                        exact SameName.refl _

omit shaped sound unique in
theorem dots_distinct (cluster parent : Nat) :
    ((volume.setData cluster (dots fs cluster parent)).setFat cluster fat32Eoc).Distinct fs
      [cluster] := by
  have dot : ∀ position ∈ fs.positions [cluster],
      Shown (((volume.setData cluster (dots fs cluster parent)).setFat cluster fat32Eoc).entry
        position) →
      position.2 = 0 ∧ (((volume.setData cluster (dots fs cluster parent)).setFat cluster
          fat32Eoc).entry position).name = padded 8 [0x2E] ∨
        position.2 = 1 ∧ (((volume.setData cluster (dots fs cluster parent)).setFat cluster
          fat32Eoc).entry position).name = padded 8 [0x2E, 0x2E] := by
    intro position member
    obtain ⟨inside, bound⟩ := Fat32Fs.mem_positions.mp member
    rw [entry, List.mem_singleton.mp inside, setFat_data, setData_data_same,
      dots_slot geometry cluster parent bound]
    split
    · rename_i first
      exact fun _ => .inl ⟨first, rfl⟩
    split
    · rename_i second
      exact fun _ => .inr ⟨second, rfl⟩
    · exact fun shown => absurd shown not_shown_zeroed
  have apart : padded 8 [0x2E] ≠ padded 8 [0x2E, (0x2E : UInt8)] := by decide
  intro position member other memberOther different clash
  obtain ⟨inside, _⟩ := Fat32Fs.mem_positions.mp member
  obtain ⟨insideOther, _⟩ := Fat32Fs.mem_positions.mp memberOther
  have indices : position.2 ≠ other.2 := fun same => different
    (Prod.ext ((List.mem_singleton.mp inside).trans (List.mem_singleton.mp insideOther).symm) same)
  obtain ⟨shown, shownOther, name, _⟩ := clash
  rcases dot position member shown with ⟨index, named⟩ | ⟨index, named⟩
  · rcases dot other memberOther shownOther with ⟨indexOther, namedOther⟩ | ⟨_, namedOther⟩
    · omega
    · exact apart (named.symm.trans (name.trans namedOther))
  · rcases dot other memberOther shownOther with ⟨_, namedOther⟩ | ⟨indexOther, namedOther⟩
    · exact apart (namedOther.symm.trans (name.symm.trans named))
    · omega

theorem mkdir_uniqueNames {path : Path} (proper : volume.ProperPath fs path)
    (seen : volume.Seen fs path) : (volume.mkdir fs path).2.UniqueNames fs := by
  simp only [mkdir]
  cases parent : volume.parentOf fs path with
  | error reason => exact unique
  | ok dir =>
      have live := Mounted.parent_live geometry sound proper parent
      simp only
      split
      · exact unique
      cases absent : volume.findIn fs dir path with
      | some position => exact unique
      | none =>
          cases found : volume.firstFree fs with
          | none => exact unique
          | some cluster =>
              obtain ⟨valid, free⟩ := firstFree_some found
              have kept : ∀ other, volume.Claimed fs other → volume.Kept
                  ((volume.setData cluster (dots fs cluster dir)).setFat cluster fat32Eoc) other := by
                intro other claimed
                refine marked_kept ?_ _
                rintro rfl
                exact claimed.not_free free
              have preserves := Preserves.of_agree kept
              have shaped' := (shaped.setData cluster
                (Mounted.length_dots geometry cluster dir)).setFat cluster fat32Eoc
              simp only [enter_snd]
              refine putEntry_uniqueNames geometry shaped' (preserves.sound geometry sound)
                (unique.of_kept geometry sound kept) (live.preserved preserves geometry sound)
                ((seen.newName parent absent _ _ _).kept geometry sound live kept)
                (dots_recordable geometry sound found dir _) fun _ others chain => ?_
              rw [newEntry_firstCluster _ _ (geometry.valid_u32 valid)] at chain
              obtain rfl := chain.unique geometry (marked_chain valid _)
              exact dots_distinct geometry cluster dir

theorem fresh_uniqueNames {dir : Nat} (live : volume.LiveDir fs dir) {nameUpper : Path}
    (fresh : ∀ cluster, volume.NewName fs dir (VfsManager.newEntry nameUpper 0x20 cluster 0))
    {α : Type} (opened : Nat → α) :
    let effect : Except VfsError α × Volume :=
      match volume.place fs [] with
      | (none, volume') => (.error .noSpace, volume')
      | (some cluster, volume') =>
          match volume'.enter fs dir (VfsManager.newEntry nameUpper 0x20 cluster 0) with
          | (.error reason, volume'') => (.error reason, volume'')
          | (.ok _, volume'') => (.ok (opened cluster), volume'')
    effect.2.UniqueNames fs := by
  apply fresh_rule opened
  · intro volume' outcome
    exact unique.of_kept geometry sound fun cluster claimed => placed_kept outcome claimed
  · intro cluster volume' outcome
    exact place_enter_uniqueNames geometry shaped sound unique live (fresh cluster) outcome

theorem openFile_uniqueNames {vfs : VfsManager} {path : Path}
    (proper : volume.ProperPath fs (vfs.canonicalize path))
    (seen : volume.Seen fs (vfs.canonicalize path)) (mode : FileMode) :
    (volume.openFile fs vfs path mode).2.UniqueNames fs := by
  have existing : ∀ (entry : Fat32DirEntry) (refused : VfsError) (opened : Nat × VfsManager),
      (if entry.isDirectory then (.error refused, volume) else (.ok opened, volume) :
        Except VfsError (Nat × VfsManager) × Volume).2.UniqueNames fs := by
    intro entry refused opened
    split <;> exact unique
  simp only [openFile]
  cases parent : volume.parentOf fs (vfs.canonicalize path) with
  | error reason => exact unique
  | ok dir =>
      have live := Mounted.parent_live geometry sound proper parent
      simp only
      split
      · split <;> exact unique
      cases found : volume.findIn fs dir (vfs.canonicalize path) with
      | none =>
          have fresh := fun cluster => seen.newName parent found 0x20 cluster 0
          cases mode with
          | read => exact unique
          | write => exact unique
          | create => exact fresh_uniqueNames geometry shaped sound unique live fresh _
          | createNew => exact fresh_uniqueNames geometry shaped sound unique live fresh _
      | some position =>
          cases mode with
          | read => exact existing _ _ _
          | write => exact existing _ _ _
          | create => exact existing _ _ _
          | createNew => exact unique

theorem delete_uniqueNames {path : Path} (proper : volume.ProperPath fs path)
    (spares : volume.SparesDots fs path) : (volume.delete fs path).2.UniqueNames fs := by
  simp only [delete]
  cases parent : volume.parentOf fs path with
  | error reason => exact unique
  | ok dir =>
      have live := Mounted.parent_live geometry sound proper parent
      simp only
      split
      · exact unique
      cases found : volume.findIn fs dir path with
      | none => exact unique
      | some position =>
          have inside := live.inside geometry sound (find_spec found).1
          have edit := erase_edit shaped inside
          have deleted := erase_deleted shaped inside
          obtain ⟨clusters, chain, owned⟩ := freed_owned geometry sound proper spares parent found
          have erased : (volume.erase position).UniqueNames fs := by
            refine edit.uniqueNames geometry unique ?_ ?_
            · intro _ _ _ _ _ _ _ _ clash
              rw [clash.1.2.1] at deleted
              cases deleted
            · intro occupied
              rw [occupied.2.1] at deleted
              cases deleted
          refine erased.preserved geometry (edit.sound geometry sound)
            (erase_free_preserves geometry shaped sound inside chain owned) fun other _ => ?_
          rw [free_entry]
          exact SameName.refl _

omit shaped in
theorem rewrite_uniqueNames {start : Nat} (writable : volume.Writable fs start)
    (data : List UInt8) : (volume.rewrite fs start data).2.UniqueNames fs := by
  obtain ⟨clusters, chain⟩ := writable.chain sound
  have kept : ∀ cluster, volume.Claimed fs cluster → cluster ∉ clusters →
      volume.Kept (volume.rewrite fs start data).2 cluster :=
    fun cluster claimed outside => rewrite_kept geometry chain data outside claimed.not_free
  by_cases absent : start < 2
  · obtain rfl := chain.none absent
    exact unique.of_kept geometry sound fun cluster claimed => kept cluster claimed nofun
  rcases writable with absent' | ⟨position, live, regular, rfl⟩
  · exact absurd absent' absent
  have nothing : volume.directory (.slot position) ≠ true := by
    rw [directory, regular]
    exact Bool.false_ne_true
  rcases rewrite_cases geometry chain data with ⟨_, _, outcome⟩ | ⟨tail, extension, outcome⟩
  · rw [outcome]
    exact unique
  · rw [outcome] at kept ⊢
    refine (rewrite_rechain sound live regular chain (by omega) extension).uniqueNames geometry
      sound unique ?_ fun directory => absurd directory nothing
    intro other claimed outside
    rw [(kept other.1 claimed (outside.resolve_right nothing)).entry]
    exact SameName.refl _

theorem recordSize_uniqueNames {path : Path} {size : Nat}
    (recorded : size > 0 → volume.ProperPath fs path) :
    (volume.recordSize fs path size).2.UniqueNames fs := by
  refine unique.preserved geometry sound
    (recordSize_preserves geometry shaped sound recorded) fun other _ => ?_
  simp only [recordSize, updateSize]
  split
  · rename_i some
    have proper := recorded some
    cases parent : volume.parentOf fs path with
    | error reason => exact SameName.refl _
    | ok dir =>
        have live := Mounted.parent_live geometry sound proper parent
        simp only
        split
        · exact SameName.refl _
        cases found : volume.findIn fs dir path with
        | none => exact SameName.refl _
        | some position =>
            have inside := live.inside geometry sound (find_spec found).1
            by_cases same : other = position
            · subst same
              rw [setEntry_entry_same shaped inside]
              exact ⟨rfl, rfl, rfl, fun _ => rfl⟩
            · rw [setEntry_entry_other shaped inside _ same]
              exact SameName.refl _
  · exact SameName.refl _

end Calls

end Volume

namespace Session

/-- When a call may add an entry, the lookup sees the name that the entry would be stored under. -/
def Sighted (fs : Fat32Fs) (vfs : VfsManager) (volume : Volume) : Call → Prop
  | .openFile path _ => volume.Seen fs (vfs.canonicalize path)
  | .createFile path _ => volume.Seen fs path
  | .mkdir path => volume.Seen fs path
  | .read _ _ | .write _ _ | .close _ | .delete _ => True

def SightedRun (fs : Fat32Fs) (session : Session) (calls : List Call) : Prop :=
  machine.Meets (fun session call => Careful fs session.vfs (fs.view session.device) call ∧
    Sighted fs session.vfs (fs.view session.device) call) session calls

theorem after_uniqueNames {fs : Fat32Fs} (geometry : fs.Geometry) {vfs : VfsManager}
    {volume : Volume} (shaped : volume.Shaped fs) (sound : volume.Sound fs)
    (unique : volume.UniqueNames fs) {call : Call} (careful : Careful fs vfs volume call)
    (sighted : Sighted fs vfs volume call) : (after fs vfs volume call).2.UniqueNames fs := by
  cases call with
  | openFile path mode =>
      rw [after_openFile]
      exact Volume.openFile_uniqueNames geometry shaped sound unique careful sighted mode
  | read fd room => exact unique
  | write fd data =>
      rcases after_write vfs volume fd data with same | ⟨file, search, writing, outcome⟩
      · rw [same]
        exact unique
      obtain ⟨_, sound', proper'⟩ := write_ready geometry sound careful file search writing
      have shaped' := Volume.rewrite_shaped shaped file.cluster (volume.patch file data)
      have unique' := Volume.rewrite_uniqueNames geometry sound unique
        (careful file search writing).1 (volume.patch file data)
      rcases outcome with stored | recorded
      · rw [stored]
        exact unique'
      · rw [recorded]
        exact Volume.recordSize_uniqueNames geometry shaped' sound' unique' proper'
  | close fd => exact unique
  | createFile path data =>
      exact Volume.createFile_uniqueNames geometry shaped sound unique careful sighted data
  | mkdir path => exact Volume.mkdir_uniqueNames geometry shaped sound unique careful sighted
  | delete path =>
      exact Volume.delete_uniqueNames geometry shaped sound unique careful.1 careful.2

theorem step_uniqueNames {fs : Fat32Fs} (geometry : fs.Geometry) {session : Session}
    (ready : session.Ready fs) (unique : (fs.view session.device).UniqueNames fs) {call : Call}
    (careful : Careful fs session.vfs (fs.view session.device) call)
    (sighted : Sighted fs session.vfs (fs.view session.device) call) :
    (fs.view (session.step call).2.device).UniqueNames fs := by
  rw [(step_shows geometry ready careful).volume]
  exact after_uniqueNames geometry (Fat32Fs.length_view_data geometry session.device) ready.sound
    unique careful sighted

/-- Calls that see the names they store keep the names of every directory apart. -/
theorem names_stay_unique {fs : Fat32Fs} (geometry : fs.Geometry) {session : Session}
    (ready : session.Ready fs) (unique : (fs.view session.device).UniqueNames fs)
    {calls : List Call} (sighted : SightedRun fs session calls) :
    (fs.view (machine.final session calls).device).UniqueNames fs := by
  have kept := machine.final_invariant
    (fun session => session.Ready fs ∧ (fs.view session.device).UniqueNames fs) _
    (fun session call before guard => ⟨step_ready geometry before.1 guard.1,
      step_uniqueNames geometry before.1 before.2 guard.1 guard.2⟩)
    session calls ⟨ready, unique⟩ sighted
  exact kept.2

end Session

theorem blank_hidden : ∀ position ∈ smallFs.positions [2],
    ¬Shown ((smallFs.view blankDevice).entry position) := by decide +kernel

theorem blank_uniqueNames : (smallFs.view blankDevice).UniqueNames smallFs := by
  intro owner others live _ owned
  obtain rfl := Volume.only_root smallFs_geometry blank_chain blank_unoccupied live
  obtain rfl := owned.unique smallFs_geometry blank_chain
  exact fun position member _ _ _ clash => blank_hidden position member clash.1

theorem names_stay_unique_mkdir : (smallFs.view
    (Session.machine.final blankSession [.mkdir [0x2F, 0x41]]).device).UniqueNames smallFs := by
  have proper : (smallFs.view blankDevice).ProperPath smallFs [0x2F, 0x41] := by decide
  have parent : (smallFs.view blankDevice).parentOf smallFs [0x2F, 0x41] = .ok 2 := by decide
  have seen : (smallFs.view blankDevice).Seen smallFs [0x2F, 0x41] := by
    rintro dir reached ⟨clusters, chain, position, member, shown, _⟩
    rw [parent, Except.ok.injEq] at reached
    subst reached
    obtain rfl := chain.unique smallFs_geometry blank_chain
    exact absurd shown (blank_hidden position member)
  exact Session.names_stay_unique smallFs_geometry blank_ready blank_uniqueNames
    ⟨⟨proper, seen⟩, trivial⟩

/-- `/ABCDEFGHI`, which is looked up whole and stored as `ABCDEFGH`. -/
def nineLetters : Path := [0x2F, 0x41, 0x42, 0x43, 0x44, 0x45, 0x46, 0x47, 0x48, 0x49]

theorem cut_names_clash : blankSession.Ready smallFs ∧
    (smallFs.view blankSession.device).UniqueNames smallFs ∧
    ¬(smallFs.view (Session.machine.final blankSession
      [.createFile nineLetters [1], .createFile nineLetters [1]]).device).UniqueNames smallFs := by
  refine ⟨blank_ready, blank_uniqueNames, ?_⟩
  let once := ((smallFs.view blankDevice).createFile smallFs nineLetters [1]).2
  let twice := (once.createFile smallFs nineLetters [1]).2
  have proper : (smallFs.view blankDevice).ProperPath smallFs nineLetters := by decide
  have properAgain : once.ProperPath smallFs nineLetters := by decide
  have careful : Session.CarefulAll smallFs blankSession.vfs (smallFs.view blankDevice)
      [.createFile nineLetters [1], .createFile nineLetters [1]] := ⟨proper, properAgain, trivial⟩
  obtain ⟨_, after⟩ := Session.final_shows smallFs_geometry blank_ready
    ⟨rfl, blank_ready.healthy, rfl⟩ careful
  simp only [Session.afterAll, Session.after] at after
  rw [after.volume]
  change ¬twice.UniqueNames smallFs
  have ended : twice.fat 2 = fat32Eoc := by decide
  have chain : twice.Chain smallFs 2 [2] := Volume.chain_single (by decide) ended.ge
  have clash : Clashes (twice.entry (2, 0)) (twice.entry (2, 1)) := by
    rw [Clashes]
    decide
  intro unique
  exact unique .root [2] .root rfl chain (2, 0) (by decide) (2, 1) (by decide) (by decide) clash

end ArcadiaOs.Fs
