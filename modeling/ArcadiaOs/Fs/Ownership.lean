import ArcadiaOs.Fs.Directory

/-!
Who owns the clusters of a volume.  The root directory and every entry recorded in a
directory of the tree own the chain they start; a sound volume gives each of them a
chain of its own.
-/

namespace ArcadiaOs.Fs

open Lib

/-- The entries `.` and `..` that a directory keeps of itself and its parent. -/
def IsDot (entry : Fat32DirEntry) : Prop :=
  byteAt entry.name 0 = 0x2E ∧ entry.isDirectory = true ∧
    (entry.fullNameUpper = [0x2E] ∨ entry.fullNameUpper = [0x2E, 0x2E])

instance (entry : Fat32DirEntry) : Decidable (IsDot entry) := inferInstanceAs (Decidable (_ ∧ _))

/-- A slot that records a file or a directory. -/
def Occupied (entry : Fat32DirEntry) : Prop :=
  entry.isEnd = false ∧ entry.isDeleted = false ∧ entry.isLongName = false ∧
    entry.isVolumeLabel = false ∧ ¬IsDot entry

instance (entry : Fat32DirEntry) : Decidable (Occupied entry) :=
  inferInstanceAs (Decidable (_ ∧ _))

inductive Owner
  | root
  | slot (position : Position)
  deriving DecidableEq

namespace Volume

def start (fs : Fat32Fs) (volume : Volume) : Owner → Nat
  | .root => fs.bpb.rootCluster.toNat
  | .slot position => (volume.entry position).firstCluster

def directory (volume : Volume) : Owner → Bool
  | .root => true
  | .slot position => (volume.entry position).isDirectory

abbrev Owns (fs : Fat32Fs) (volume : Volume) (owner : Owner) (clusters : List Nat) : Prop :=
  volume.Chain fs (volume.start fs owner) clusters

/-- The root directory and whatever is recorded in a live directory. -/
inductive Live (fs : Fat32Fs) (volume : Volume) : Owner → Prop
  | root : Live fs volume .root
  | slot {owner : Owner} {clusters : List Nat} {position : Position} :
      Live fs volume owner → volume.directory owner = true → volume.Owns fs owner clusters →
      position ∈ fs.positions clusters → Occupied (volume.entry position) →
      Live fs volume (.slot position)

/-- Every live owner has a chain, a directory at least one cluster, and no two share a cluster. -/
structure Sound (fs : Fat32Fs) (volume : Volume) : Prop where
  owns : ∀ owner, volume.Live fs owner → ∃ clusters, volume.Owns fs owner clusters
  directories : ∀ owner, volume.Live fs owner → volume.directory owner = true →
    2 ≤ volume.start fs owner
  apart : ∀ owner other, volume.Live fs owner → volume.Live fs other → owner ≠ other →
    ∀ clusters others, volume.Owns fs owner clusters → volume.Owns fs other others →
      clusters.Disjoint others

def Claimed (fs : Fat32Fs) (volume : Volume) (cluster : Nat) : Prop :=
  ∃ owner clusters, volume.Live fs owner ∧ volume.Owns fs owner clusters ∧ cluster ∈ clusters

variable {fs : Fat32Fs} {volume volume' : Volume}

theorem Chain.unique (geometry : fs.Geometry) {start : Nat} {clusters others : List Nat}
    (chain : volume.Chain fs start clusters) (other : volume.Chain fs start others) :
    clusters = others := by
  by_cases absent : start < 2
  · rw [chain.none absent, other.none absent]
  · refine linked_unique Function.injective_id
      (fun cluster member => geometry.valid_not_end (chain.valid cluster member))
      (fun cluster member => geometry.valid_not_end (other.valid cluster member)) ?_ chain.linked
      other.linked
    rw [chain.head (by omega), other.head (by omega)]

theorem chain_absent {start : Nat} (absent : start < 2) : volume.Chain fs start [] := by
  refine ⟨fun _ => rfl, fun present => ?_, nofun, List.nodup_nil, trivial⟩
  omega

theorem Chain.mem_start {start : Nat} {clusters : List Nat}
    (chain : volume.Chain fs start clusters) (present : 2 ≤ start) : start ∈ clusters :=
  List.mem_of_mem_head? (chain.head present)

theorem Chain.shown_start {start : Nat} {clusters : List Nat}
    (chain : volume.Chain fs start clusters) (present : 2 ≤ start) :
    start ∈ Fat32Fs.visible clusters := by
  apply List.mem_of_mem_head?
  rw [Fat32Fs.visible, List.head?_take, if_neg (Nat.succ_ne_zero Fat32Fs.maxChain)]
  exact chain.head present

theorem Claimed.not_free {cluster : Nat} (claimed : volume.Claimed fs cluster) :
    volume.fat cluster ≠ 0 := by
  obtain ⟨_, _, _, owns, member⟩ := claimed
  exact owns.not_free member

theorem Live.occupied {position : Position} (live : volume.Live fs (.slot position)) :
    Occupied (volume.entry position) := by
  cases live with
  | slot _ _ _ _ occupied => exact occupied

theorem Live.claimed {position : Position} (live : volume.Live fs (.slot position)) :
    volume.Claimed fs position.1 ∧ fs.InCluster position.2 := by
  cases live with
  | slot parent _ owns member _ =>
      obtain ⟨inside, bound⟩ := Fat32Fs.mem_positions.mp member
      exact ⟨⟨_, _, parent, owns, inside⟩, bound⟩

theorem Live.outside (sound : volume.Sound fs) {position : Position}
    (live : volume.Live fs (.slot position)) {owner : Owner} (ownerLive : volume.Live fs owner)
    (regular : volume.directory owner = false) {clusters : List Nat}
    (owned : volume.Owns fs owner clusters) : position.1 ∉ clusters := by
  cases live with
  | @slot parent held _ parentLive directory parentOwns member _ =>
      intro inside
      have different : parent ≠ owner := by
        rintro rfl
        exact Bool.false_ne_true (regular.symm.trans directory)
      exact sound.apart parent owner parentLive ownerLive different held clusters parentOwns owned
        (Fat32Fs.mem_positions.mp member).1 inside

section Blank

variable (geometry : fs.Geometry) {clusters : List Nat}
  (chain : volume.Chain fs fs.bpb.rootCluster.toNat clusters)
  (blank : ∀ position ∈ fs.positions clusters, ¬Occupied (volume.entry position))
include geometry chain blank

theorem only_root {owner : Owner} (live : volume.Live fs owner) : owner = .root := by
  induction live with
  | root => rfl
  | slot _ _ owned member occupied ih =>
      subst ih
      rw [owned.unique geometry chain] at member
      exact absurd occupied (blank _ member)

theorem sound_of_blank (present : 2 ≤ fs.bpb.rootCluster.toNat) : volume.Sound fs := by
  have only (owner : Owner) (live : volume.Live fs owner) : owner = .root :=
    only_root geometry chain blank live
  refine ⟨fun owner live => ?_, fun owner live _ => ?_, fun owner other live otherLive apart => ?_⟩
  · exact only owner live ▸ ⟨clusters, chain⟩
  · exact only owner live ▸ present
  · exact absurd ((only owner live).trans (only other otherLive).symm) apart

end Blank

/-- Entries that record the same thing: the same place in the tree, chain and kind. -/
def Similar (left right : Fat32DirEntry) : Prop :=
  (Occupied left ↔ Occupied right) ∧ left.firstCluster = right.firstCluster ∧
    left.isDirectory = right.isDirectory

theorem Similar.refl (entry : Fat32DirEntry) : Similar entry entry := ⟨Iff.rfl, rfl, rfl⟩

/-- A change outside the claimed clusters, up to entries that record the same thing. -/
structure Preserves (fs : Fat32Fs) (volume volume' : Volume) : Prop where
  links : ∀ cluster, volume.Claimed fs cluster → volume'.fat cluster = volume.fat cluster
  entries : ∀ position, volume.Claimed fs position.1 → fs.InCluster position.2 →
    Similar (volume'.entry position) (volume.entry position)

theorem Preserves.of_agree
    (agree : ∀ cluster, volume.Claimed fs cluster →
      volume'.fat cluster = volume.fat cluster ∧ volume'.data cluster = volume.data cluster) :
    volume.Preserves fs volume' := by
  refine ⟨fun cluster claimed => (agree cluster claimed).1, fun position claimed _ => ?_⟩
  have same : volume'.entry position = volume.entry position := by
    rw [entry, entry, (agree position.1 claimed).2]
  rw [same]
  exact Similar.refl _

namespace Preserves

variable (preserves : volume.Preserves fs volume')
include preserves

theorem start_eq {owner : Owner} (live : volume.Live fs owner) :
    volume'.start fs owner = volume.start fs owner := by
  cases owner with
  | root => rfl
  | slot position =>
      exact (preserves.entries position live.claimed.1 live.claimed.2).2.1

theorem directory_eq {owner : Owner} (live : volume.Live fs owner) :
    volume'.directory owner = volume.directory owner := by
  cases owner with
  | root => rfl
  | slot position =>
      exact (preserves.entries position live.claimed.1 live.claimed.2).2.2

theorem owns {owner : Owner} {clusters : List Nat} (live : volume.Live fs owner)
    (owned : volume.Owns fs owner clusters) : volume'.Owns fs owner clusters := by
  rw [Owns, preserves.start_eq live]
  exact owned.congr fun cluster member =>
    preserves.links cluster ⟨owner, clusters, live, owned, member⟩

theorem owns_iff (geometry : fs.Geometry) (sound : volume.Sound fs) {owner : Owner}
    {clusters : List Nat} (live : volume.Live fs owner) :
    volume'.Owns fs owner clusters ↔ volume.Owns fs owner clusters := by
  refine ⟨fun owned => ?_, preserves.owns live⟩
  obtain ⟨others, before⟩ := sound.owns owner live
  rw [(owned).unique geometry (preserves.owns live before)]
  exact before

theorem live_iff (geometry : fs.Geometry) (sound : volume.Sound fs) (owner : Owner) :
    volume'.Live fs owner ↔ volume.Live fs owner := by
  constructor
  · intro live
    induction live with
    | root => exact .root
    | slot _ directory owned member occupied parent =>
        rw [preserves.directory_eq parent] at directory
        rw [preserves.owns_iff geometry sound parent] at owned
        obtain ⟨inside, bound⟩ := Fat32Fs.mem_positions.mp member
        have similar := preserves.entries _ ⟨_, _, parent, owned, inside⟩ bound
        exact .slot parent directory owned member (similar.1.mp occupied)
  · intro live
    induction live with
    | root => exact .root
    | slot parentLive directory owned member occupied parent =>
        obtain ⟨inside, bound⟩ := Fat32Fs.mem_positions.mp member
        have similar := preserves.entries _ ⟨_, _, parentLive, owned, inside⟩ bound
        refine .slot parent ?_ (preserves.owns parentLive owned) member (similar.1.mpr occupied)
        rw [preserves.directory_eq parentLive, directory]

theorem claimed_iff (geometry : fs.Geometry) (sound : volume.Sound fs) (cluster : Nat) :
    volume'.Claimed fs cluster ↔ volume.Claimed fs cluster := by
  constructor
  · rintro ⟨owner, clusters, live, owned, member⟩
    have before := (preserves.live_iff geometry sound owner).mp live
    exact ⟨owner, clusters, before, (preserves.owns_iff geometry sound before).mp owned, member⟩
  · rintro ⟨owner, clusters, live, owned, member⟩
    exact ⟨owner, clusters, (preserves.live_iff geometry sound owner).mpr live,
      preserves.owns live owned, member⟩

theorem sound (geometry : fs.Geometry) (sound : volume.Sound fs) : volume'.Sound fs := by
  have live := fun owner => (preserves.live_iff geometry sound owner).mp
  refine ⟨fun owner live' => ?_, fun owner live' directory => ?_, ?_⟩
  · obtain ⟨clusters, owned⟩ := sound.owns owner (live owner live')
    exact ⟨clusters, preserves.owns (live owner live') owned⟩
  · rw [preserves.directory_eq (live owner live')] at directory
    rw [preserves.start_eq (live owner live')]
    exact sound.directories owner (live owner live') directory
  · intro owner other ownerLive otherLive different clusters others owned otherOwned
    rw [preserves.owns_iff geometry sound (live owner ownerLive)] at owned
    rw [preserves.owns_iff geometry sound (live other otherLive)] at otherOwned
    exact sound.apart owner other (live owner ownerLive) (live other otherLive) different clusters
      others owned otherOwned

end Preserves

/-- One slot rewritten, the table and all other slots kept.  What the slot records now, if
anything, owns a chain nobody else owns, and a directory recorded there is still empty. -/
structure SlotEdit (fs : Fat32Fs) (volume volume' : Volume) (position : Position) : Prop where
  links : volume'.fat = volume.fat
  entries : ∀ other, other ≠ position → volume'.entry other = volume.entry other
  recorded : Occupied (volume'.entry position) →
    ∃ clusters, volume.Chain fs (volume'.entry position).firstCluster clusters ∧
      ((volume'.entry position).isDirectory = true →
        2 ≤ (volume'.entry position).firstCluster ∧
        ∀ other ∈ fs.positions clusters, ¬Occupied (volume'.entry other)) ∧
      ∀ owner others, volume.Live fs owner → owner ≠ .slot position →
        volume.Owns fs owner others → others.Disjoint clusters

namespace SlotEdit

variable {position : Position} (edit : volume.SlotEdit fs volume' position)
include edit

theorem chain_iff {start : Nat} {clusters : List Nat} :
    volume'.Chain fs start clusters ↔ volume.Chain fs start clusters := by
  constructor
  · exact fun chain => chain.congr fun cluster _ => by rw [edit.links]
  · exact fun chain => chain.congr fun cluster _ => by rw [edit.links]

theorem start_eq {owner : Owner} (other : owner ≠ .slot position) :
    volume'.start fs owner = volume.start fs owner := by
  cases owner with
  | root => rfl
  | slot place =>
      rw [start, start, edit.entries place fun same => other (congrArg Owner.slot same)]

theorem directory_eq {owner : Owner} (other : owner ≠ .slot position) :
    volume'.directory owner = volume.directory owner := by
  cases owner with
  | root => rfl
  | slot place =>
      rw [directory, directory, edit.entries place fun same => other (congrArg Owner.slot same)]

theorem owns_iff {owner : Owner} (other : owner ≠ .slot position) {clusters : List Nat} :
    volume'.Owns fs owner clusters ↔ volume.Owns fs owner clusters := by
  rw [Owns, edit.start_eq other, edit.chain_iff]

theorem live (geometry : fs.Geometry) {owner : Owner} (live : volume'.Live fs owner) :
    owner = .slot position ∨ owner ≠ .slot position ∧ volume.Live fs owner := by
  induction live with
  | root => exact .inr ⟨nofun, .root⟩
  | @slot parent clusters place parentLive directory owned member occupied ih =>
      by_cases here : place = position
      · exact .inl (congrArg Owner.slot here)
      refine .inr ⟨fun same => here (Owner.slot.inj same), ?_⟩
      rcases ih with rfl | ⟨other, before⟩
      · obtain ⟨chain, owns, empty, _⟩ := edit.recorded parentLive.occupied
        rw [Owns, edit.chain_iff] at owned
        rw [owned.unique geometry owns] at member
        exact absurd occupied ((empty directory).2 place member)
      · rw [edit.directory_eq other] at directory
        rw [edit.owns_iff other] at owned
        rw [edit.entries place here] at occupied
        exact .slot before directory owned member occupied

theorem sound (geometry : fs.Geometry) (sound : volume.Sound fs) : volume'.Sound fs := by
  refine ⟨fun owner live => ?_, fun owner live directory => ?_, ?_⟩
  · rcases edit.live geometry live with rfl | ⟨other, before⟩
    · obtain ⟨clusters, owns, _⟩ := edit.recorded live.occupied
      exact ⟨clusters, edit.chain_iff.mpr owns⟩
    · obtain ⟨clusters, owns⟩ := sound.owns owner before
      exact ⟨clusters, (edit.owns_iff other).mpr owns⟩
  · rcases edit.live geometry live with rfl | ⟨other, before⟩
    · obtain ⟨_, _, empty, _⟩ := edit.recorded live.occupied
      exact (empty directory).1
    · rw [edit.directory_eq other] at directory
      rw [edit.start_eq other]
      exact sound.directories owner before directory
  · intro owner other ownerLive otherLive different clusters others owned otherOwned
    rcases edit.live geometry ownerLive with rfl | ⟨ownerOther, ownerBefore⟩
    · obtain ⟨chain, owns, _, fresh⟩ := edit.recorded ownerLive.occupied
      rw [Owns, edit.chain_iff] at owned
      obtain rfl := owned.unique geometry owns
      rcases edit.live geometry otherLive with rfl | ⟨otherOther, otherBefore⟩
      · exact absurd rfl different
      · rw [edit.owns_iff otherOther] at otherOwned
        exact List.disjoint_symm (fresh other others otherBefore otherOther otherOwned)
    · rw [edit.owns_iff ownerOther] at owned
      rcases edit.live geometry otherLive with rfl | ⟨otherOther, otherBefore⟩
      · obtain ⟨chain, owns, _, fresh⟩ := edit.recorded otherLive.occupied
        rw [Owns, edit.chain_iff] at otherOwned
        obtain rfl := otherOwned.unique geometry owns
        exact fresh owner clusters ownerBefore ownerOther owned
      · rw [edit.owns_iff otherOther] at otherOwned
        exact sound.apart owner other ownerBefore otherBefore different clusters others owned
          otherOwned

end SlotEdit

/-- One owner gets a new chain out of its old one and unclaimed clusters; the chains of the others
and everything recorded in the directories are kept.  A directory may change in unclaimed
clusters only, and what it gains is empty. -/
structure Rechain (fs : Fat32Fs) (volume volume' : Volume) (owner : Owner)
    (clusters clusters' : List Nat) : Prop where
  live : volume.Live fs owner
  before : volume.Owns fs owner clusters
  after : volume'.Owns fs owner clusters'
  kind : volume'.directory owner = volume.directory owner
  nonempty : volume.directory owner = true → 2 ≤ volume'.start fs owner
  within : ∀ cluster ∈ clusters', cluster ∈ clusters ∨ ¬volume.Claimed fs cluster
  links : ∀ cluster, volume.Claimed fs cluster → cluster ∉ clusters →
    volume'.fat cluster = volume.fat cluster
  entries : ∀ position, volume.Claimed fs position.1 → fs.InCluster position.2 →
    owner ≠ .slot position → position.1 ∉ clusters ∨ volume.directory owner = true →
    Similar (volume'.entry position) (volume.entry position)
  gained : volume.directory owner = true → ∀ position ∈ fs.positions clusters',
    ¬volume.Claimed fs position.1 → ¬Occupied (volume'.entry position)

namespace Rechain

variable {owner : Owner} {clusters clusters' : List Nat}
  (rechain : volume.Rechain fs volume' owner clusters clusters') (sound : volume.Sound fs)
include rechain sound

theorem similar {position : Position} (live : volume.Live fs (.slot position))
    (other : owner ≠ .slot position) :
    Similar (volume'.entry position) (volume.entry position) := by
  refine rechain.entries position live.claimed.1 live.claimed.2 other ?_
  cases live with
  | @slot parent held _ parentLive directory owned member _ =>
      by_cases same : parent = owner
      · exact .inr (same ▸ directory)
      · have apart := sound.apart parent owner parentLive rechain.live same held clusters owned
          rechain.before
        exact .inl (apart (Fat32Fs.mem_positions.mp member).1)

theorem start_eq {other : Owner} (live : volume.Live fs other) (different : owner ≠ other) :
    volume'.start fs other = volume.start fs other := by
  cases other with
  | root => rfl
  | slot position => exact (rechain.similar sound live different).2.1

theorem directory_eq {other : Owner} (live : volume.Live fs other) :
    volume'.directory other = volume.directory other := by
  by_cases same : owner = other
  · exact same ▸ rechain.kind
  cases other with
  | root => rfl
  | slot position => exact (rechain.similar sound live same).2.2

theorem owns {other : Owner} (live : volume.Live fs other) (different : owner ≠ other)
    {others : List Nat} (owned : volume.Owns fs other others) : volume'.Owns fs other others := by
  rw [Owns, rechain.start_eq sound live different]
  refine owned.congr fun cluster member => ?_
  refine rechain.links cluster ⟨other, others, live, owned, member⟩ fun inside => ?_
  exact sound.apart owner other rechain.live live different clusters others rechain.before owned
    inside member

theorem owns_iff (geometry : fs.Geometry) {other : Owner} (live : volume.Live fs other)
    (different : owner ≠ other) {others : List Nat} :
    volume'.Owns fs other others ↔ volume.Owns fs other others := by
  refine ⟨fun owned => ?_, rechain.owns sound live different⟩
  obtain ⟨held, before⟩ := sound.owns other live
  rw [owned.unique geometry (rechain.owns sound live different before)]
  exact before

theorem live_of (geometry : fs.Geometry) {other : Owner} (live : volume'.Live fs other) :
    volume.Live fs other := by
  induction live with
  | root => exact .root
  | @slot parent held position _ directory owned member occupied ih =>
      by_cases here : owner = .slot position
      · exact here ▸ rechain.live
      obtain ⟨inside, bound⟩ := Fat32Fs.mem_positions.mp member
      rw [rechain.directory_eq sound ih] at directory
      by_cases same : owner = parent
      · subst same
        rw [owned.unique geometry rechain.after] at member inside
        rcases rechain.within position.1 inside with old | fresh
        · have claimed : volume.Claimed fs position.1 :=
            ⟨owner, clusters, rechain.live, rechain.before, old⟩
          have similar := rechain.entries position claimed bound here (.inr directory)
          exact .slot rechain.live directory rechain.before
            (Fat32Fs.mem_positions.mpr ⟨old, bound⟩) (similar.1.mp occupied)
        · exact absurd occupied (rechain.gained directory position member fresh)
      · rw [rechain.owns_iff sound geometry ih same] at owned
        have claimed : volume.Claimed fs position.1 := ⟨parent, held, ih, owned, inside⟩
        have outside : position.1 ∉ clusters := fun old =>
          sound.apart owner parent rechain.live ih same clusters held rechain.before owned old inside
        have similar := rechain.entries position claimed bound here (.inl outside)
        exact .slot ih directory owned member (similar.1.mp occupied)

theorem disjoint {other : Owner} (live : volume.Live fs other) (different : owner ≠ other)
    {others : List Nat} (owned : volume.Owns fs other others) : clusters'.Disjoint others := by
  intro cluster member memberOther
  rcases rechain.within cluster member with old | fresh
  · exact sound.apart owner other rechain.live live different clusters others rechain.before owned
      old memberOther
  · exact fresh ⟨other, others, live, owned, memberOther⟩

theorem sound_after (geometry : fs.Geometry) : volume'.Sound fs := by
  have liveOf := fun other (live : volume'.Live fs other) => rechain.live_of sound geometry live
  refine ⟨fun other live => ?_, fun other live directory => ?_, ?_⟩
  · by_cases same : owner = other
    · exact ⟨clusters', same ▸ rechain.after⟩
    · obtain ⟨others, owned⟩ := sound.owns other (liveOf other live)
      exact ⟨others, rechain.owns sound (liveOf other live) same owned⟩
  · rw [rechain.directory_eq sound (liveOf other live)] at directory
    by_cases same : owner = other
    · subst same
      exact rechain.nonempty directory
    · rw [rechain.start_eq sound (liveOf other live) same]
      exact sound.directories other (liveOf other live) directory
  · intro left right leftLive rightLive different leftClusters rightClusters leftOwned rightOwned
    have leftBefore := liveOf left leftLive
    have rightBefore := liveOf right rightLive
    by_cases leftSame : owner = left
    · subst leftSame
      rw [rechain.owns_iff sound geometry rightBefore different] at rightOwned
      rw [leftOwned.unique geometry rechain.after]
      exact rechain.disjoint sound rightBefore different rightOwned
    · rw [rechain.owns_iff sound geometry leftBefore leftSame] at leftOwned
      by_cases rightSame : owner = right
      · subst rightSame
        rw [rightOwned.unique geometry rechain.after]
        exact List.disjoint_symm (rechain.disjoint sound leftBefore leftSame leftOwned)
      · rw [rechain.owns_iff sound geometry rightBefore rightSame] at rightOwned
        exact sound.apart left right leftBefore rightBefore different leftClusters rightClusters
          leftOwned rightOwned

end Rechain

end Volume

end ArcadiaOs.Fs
