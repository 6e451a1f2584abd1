import ArcadiaOs.Fs.Invariant

/-!
Steps that leave the directories of a volume alone: as long as every slot of a
directory keeps its name and every directory its chain, paths lead where they led.
-/

namespace ArcadiaOs.Fs

open Lib

/-- Entries a lookup cannot tell apart, up to the chain and the size of a regular file. -/
structure SameName (left right : Fat32DirEntry) : Prop where
  name : left.name = right.name
  ext : left.ext = right.ext
  attributes : left.attributes = right.attributes
  cluster : right.isDirectory = true → left.firstCluster = right.firstCluster

theorem SameName.refl (entry : Fat32DirEntry) : SameName entry entry :=
  ⟨rfl, rfl, rfl, fun _ => rfl⟩

theorem SameName.judgeName {left right : Fat32DirEntry} (same : SameName left right)
    (nameUpper : List UInt8) : judgeName nameUpper left = judgeName nameUpper right := by
  obtain ⟨name, ext, attributes, _⟩ := same
  cases left
  cases right
  cases name
  cases ext
  cases attributes
  rfl

theorem SameName.fullName {left right : Fat32DirEntry} (same : SameName left right) :
    left.fullName = right.fullName := by
  obtain ⟨name, ext, _, _⟩ := same
  cases left
  cases right
  cases name
  cases ext
  rfl

theorem SameName.isDirectory {left right : Fat32DirEntry} (same : SameName left right) :
    left.isDirectory = right.isDirectory := by
  rw [Fat32DirEntry.isDirectory, Fat32DirEntry.isDirectory, same.attributes]

def SameInfo (left right : DirEntryInfo) : Prop :=
  left.name = right.name ∧ left.isDir = right.isDir ∧
    (right.isDir = true → left.cluster = right.cluster)

namespace Volume

variable {fs : Fat32Fs} {volume volume' : Volume}

theorem listing_same {positions : List Position}
    (same : ∀ position ∈ positions, SameName (volume'.entry position) (volume.entry position)) :
    List.Forall₂ SameInfo (volume'.listing positions) (volume.listing positions) := by
  induction positions with
  | nil => exact .nil
  | cons position rest ih =>
      have later := ih fun other member => same other (List.mem_cons_of_mem _ member)
      have first := same position List.mem_cons_self
      have ended : (volume'.entry position).isEnd = (volume.entry position).isEnd := by
        rw [Fat32DirEntry.isEnd, Fat32DirEntry.isEnd, first.name]
      have hidden : ((volume'.entry position).isDeleted || (volume'.entry position).isLongName ||
            (volume'.entry position).isVolumeLabel) =
          ((volume.entry position).isDeleted || (volume.entry position).isLongName ||
            (volume.entry position).isVolumeLabel) := by
        simp only [Fat32DirEntry.isDeleted, Fat32DirEntry.isLongName, Fat32DirEntry.isVolumeLabel,
          first.name, first.attributes]
      have named : (DirEntryInfo.ofEntry (volume'.entry position)).name =
          (DirEntryInfo.ofEntry (volume.entry position)).name := by
        rw [DirEntryInfo.ofEntry, DirEntryInfo.ofEntry, first.fullName]
      simp only [listing, ended, hidden, named]
      split
      · exact .nil
      split
      · exact later
      split
      · exact later
      · exact .cons ⟨named, first.isDirectory, first.cluster⟩ later

theorem find_same_info {left right : List DirEntryInfo} (same : List.Forall₂ SameInfo left right)
    (judge : List UInt8 → Bool) :
    (left.find? fun info => judge info.name) = none ∧
        (right.find? fun info => judge info.name) = none ∨
      ∃ found found', (left.find? fun info => judge info.name) = some found' ∧
        (right.find? fun info => judge info.name) = some found ∧ SameInfo found' found := by
  induction same with
  | nil => exact .inl ⟨rfl, rfl⟩
  | @cons first second _ _ related _ ih =>
      simp only [List.find?_cons, related.1]
      cases judge second.name with
      | true => exact .inr ⟨second, first, rfl, rfl, related⟩
      | false => exact ih

/-- Every directory keeps its chain, and its slots their names. -/
structure SameDirs (fs : Fat32Fs) (volume volume' : Volume) : Prop where
  chains : ∀ dir clusters, volume.LiveDir fs dir → volume.Chain fs dir clusters →
    volume'.Chain fs dir clusters
  slots : ∀ dir clusters, volume.LiveDir fs dir → volume.Chain fs dir clusters →
    ∀ position ∈ fs.positions clusters, SameName (volume'.entry position) (volume.entry position)

namespace SameDirs

variable (same : volume.SameDirs fs volume') (geometry : fs.Geometry) (sound : volume.Sound fs)
include same geometry sound

theorem slotsOf_eq {dir : Nat} (live : volume.LiveDir fs dir) :
    volume'.slotsOf fs dir = volume.slotsOf fs dir := by
  obtain ⟨_, clusters, chain⟩ := live.chain sound
  rw [Volume.slotsOf_eq geometry chain, Volume.slotsOf_eq geometry (same.chains dir clusters live chain)]

theorem slot {dir : Nat} (live : volume.LiveDir fs dir) {position : Position}
    (member : position ∈ volume.slotsOf fs dir) :
    SameName (volume'.entry position) (volume.entry position) := by
  obtain ⟨_, clusters, chain⟩ := live.chain sound
  rw [Volume.slotsOf_eq geometry chain] at member
  exact same.slots dir clusters live chain position (slots_subset member)

theorem find_eq {dir : Nat} (live : volume.LiveDir fs dir) (nameUpper : List UInt8) :
    volume'.find nameUpper (volume'.slotsOf fs dir) =
      volume.find nameUpper (volume.slotsOf fs dir) := by
  rw [same.slotsOf_eq geometry sound live, find, find,
    scan_congr fun position member => (same.slot geometry sound live member).judgeName nameUpper]

theorem lookup {dir : Nat} (live : volume.LiveDir fs dir) (component : Path) :
    volume'.lookup fs dir component = none ∧ volume.lookup fs dir component = none ∨
      ∃ info info', volume'.lookup fs dir component = some info' ∧
        volume.lookup fs dir component = some info ∧ SameInfo info' info := by
  rw [Volume.lookup, Volume.lookup, same.slotsOf_eq geometry sound live]
  exact find_same_info (listing_same fun _ member => same.slot geometry sound live member)
    fun name => decide (toUpper83 name = toUpper83 component)

theorem walk {path : List Path} {current : Nat} (live : volume.LiveDir fs current)
    (proper : volume.throughDirs fs path current = true) :
    volume'.walk fs path current = volume.walk fs path current ∧
      volume'.throughDirs fs path current = true := by
  induction path generalizing current with
  | nil => exact ⟨rfl, rfl⟩
  | cons component rest ih =>
      simp only [Volume.walk, throughDirs] at proper ⊢
      by_cases stay : component = [] ∨ component = [0x2E]
      · simp only [if_pos stay] at proper ⊢
        exact ih live proper
      simp only [if_neg stay] at proper ⊢
      by_cases up : component = [0x2E, 0x2E]
      · simp only [if_pos up] at proper ⊢
        exact ih liveDir_root proper
      simp only [if_neg up] at proper ⊢
      rcases same.lookup geometry sound live component with ⟨missing', missing⟩ |
        ⟨info, info', found', found, related⟩
      · rw [missing', missing]
        exact ⟨rfl, rfl⟩
      · rw [found] at proper
        rw [found', found]
        simp only [Bool.and_eq_true] at proper ⊢
        have below := live.down geometry sound found proper.1
        rw [related.2.1, related.2.2 proper.1]
        exact ⟨(ih below proper.2).1, proper.1, (ih below proper.2).2⟩

theorem parentOf_eq {path : Path} (proper : volume.ProperPath fs path) :
    volume'.parentOf fs path = volume.parentOf fs path :=
  (same.walk geometry sound liveDir_root proper).1

theorem properPath {path : Path} (proper : volume.ProperPath fs path) :
    volume'.ProperPath fs path :=
  (same.walk geometry sound liveDir_root proper).2

theorem findIn_eq {dir : Nat} (live : volume.LiveDir fs dir) (path : Path) :
    volume'.findIn fs dir path = volume.findIn fs dir path :=
  same.find_eq geometry sound live _

end SameDirs

theorem SameDirs.of_kept (kept : ∀ dir clusters, volume.LiveDir fs dir →
    volume.Chain fs dir clusters → ∀ cluster ∈ clusters, volume.Kept volume' cluster) :
    volume.SameDirs fs volume' := by
  refine ⟨fun dir clusters live chain => chain.kept (kept dir clusters live chain), ?_⟩
  intro dir clusters live chain position member
  rw [(kept dir clusters live chain position.1 (Fat32Fs.mem_positions.mp member).1).entry]
  exact SameName.refl _

theorem LiveDir.claimed {dir : Nat} (live : volume.LiveDir fs dir) {clusters : List Nat}
    (chain : volume.Chain fs dir clusters) {cluster : Nat} (member : cluster ∈ clusters) :
    volume.Claimed fs cluster := by
  obtain ⟨owner, ownerLive, _, rfl⟩ := live
  exact ⟨owner, clusters, ownerLive, chain, member⟩

theorem LiveDir.apart (sound : volume.Sound fs) {dir : Nat} (live : volume.LiveDir fs dir)
    {clusters : List Nat} (chain : volume.Chain fs dir clusters) {owner : Owner}
    (ownerLive : volume.Live fs owner) (regular : volume.directory owner = false)
    {held : List Nat} (owned : volume.Owns fs owner held) : clusters.Disjoint held := by
  obtain ⟨parent, parentLive, directory, rfl⟩ := live
  have different : parent ≠ owner := by
    rintro rfl
    exact Bool.false_ne_true (regular.symm.trans directory)
  exact sound.apart parent owner parentLive ownerLive different clusters held chain owned

theorem rewrite_sameDirs (geometry : fs.Geometry) (sound : volume.Sound fs) {start : Nat}
    (writable : volume.Writable fs start) (data : List UInt8) :
    volume.SameDirs fs (volume.rewrite fs start data).2 := by
  obtain ⟨held, owned⟩ := writable.chain sound
  refine SameDirs.of_kept fun dir clusters live chain cluster member => ?_
  refine rewrite_kept geometry owned data ?_ (chain.not_free member)
  rcases writable with absent | ⟨position, slot, regular, rfl⟩
  · rw [owned.none absent]
    exact List.not_mem_nil
  · exact live.apart sound chain slot regular owned member

end Volume

end ArcadiaOs.Fs
