import ArcadiaOs.Fs.Resolution

/-!
What `delete` leaves behind.  It removes one slot and frees one chain, so the clusters
of a directory's contents are lost, and a chain that is still linked is freed when the
slot was a dot.
-/

namespace ArcadiaOs.Fs

open Lib

namespace Volume

/-- Every allocated cluster belongs to the root directory or to an entry in the tree. -/
def Tight (fs : Fat32Fs) (volume : Volume) : Prop :=
  ∀ cluster, volume.fat cluster ≠ 0 → volume.Claimed fs cluster

/-- Nothing leaks, and whatever is in the tree has its whole chain allocated. -/
def Balanced (fs : Fat32Fs) (volume : Volume) : Prop :=
  volume.Tight fs ∧ ∀ owner, volume.Live fs owner → ∃ clusters, volume.Owns fs owner clusters

/-- The dots of a directory stand for directories of the tree or for no chain. -/
def DotsLead (fs : Fat32Fs) (volume : Volume) : Prop :=
  ∀ dir position, volume.LiveDir fs dir → position ∈ volume.slotsOf fs dir →
    IsDot (volume.entry position) →
    (volume.entry position).firstCluster < 2 ∨ volume.LiveDir fs (volume.entry position).firstCluster

/-- The entry owns all that is lost with it: a dot owns no chain, a chain is short enough for
`read_chain`, and the contents of a directory own nothing. -/
structure OwnsAll (fs : Fat32Fs) (volume : Volume) (position : Position) : Prop where
  dot : IsDot (volume.entry position) → (volume.entry position).firstCluster < 2
  seen : ¬IsDot (volume.entry position) → ∀ clusters,
    volume.Owns fs (.slot position) clusters → clusters.length ≤ Fat32Fs.maxChain + 1
  contents : ¬IsDot (volume.entry position) → (volume.entry position).isDirectory = true →
    ∀ clusters, volume.Owns fs (.slot position) clusters → ∀ inner ∈ fs.positions clusters,
      Occupied (volume.entry inner) → (volume.entry inner).firstCluster < 2

variable {fs : Fat32Fs} {volume : Volume}

theorem Live.parent {position : Position} (live : volume.Live fs (.slot position)) :
    ∃ owner clusters, owner ≠ .slot position ∧ volume.Live fs owner ∧
      volume.directory owner = true ∧ volume.Owns fs owner clusters ∧
      position ∈ fs.positions clusters := by
  generalize same : Owner.slot position = owner at live
  induction live with
  | root => cases same
  | @slot parent clusters place parentLive directory owned member occupied ih =>
      injection same with same
      subst same
      by_cases own : parent = .slot position
      · subst own
        exact ih rfl
      · exact ⟨parent, clusters, own, parentLive, directory, owned, member⟩

theorem erase_not_live (shaped : volume.Shaped fs) {position : Position}
    (inside : fs.InCluster position.2) : ¬(volume.erase position).Live fs (.slot position) := by
  intro live
  have deleted := erase_deleted shaped inside
  rw [live.occupied.2.1] at deleted
  cases deleted

theorem erase_entry (shaped : volume.Shaped fs) {position : Position}
    (inside : fs.InCluster position.2) (dot : IsDot (volume.entry position)) {place : Position}
    (occupied : Occupied (volume.entry place)) :
    (volume.erase position).entry place = volume.entry place := by
  refine erase_entry_other shaped inside ?_
  rintro rfl
  exact occupied.2.2.2.2 dot

theorem erase_dot_live (shaped : volume.Shaped fs) {position : Position}
    (inside : fs.InCluster position.2) (dot : IsDot (volume.entry position)) {owner : Owner}
    (live : volume.Live fs owner) : (volume.erase position).Live fs owner := by
  have edit := erase_edit shaped inside
  induction live with
  | root => exact .root
  | @slot parent held place parentLive directory parentOwns member occupied ih =>
      have other : parent ≠ .slot position := by
        rintro rfl
        exact parentLive.occupied.2.2.2.2 dot
      refine .slot ih ?_ ((edit.owns_iff other).mpr parentOwns) member ?_
      · rw [edit.directory_eq other, directory]
      · rw [erase_entry shaped inside dot occupied]
        exact occupied

section Delete

variable (geometry : fs.Geometry) (shaped : volume.Shaped fs) {position : Position}
  (inside : fs.InCluster position.2)
include geometry shaped inside

theorem erase_free_fat {start : Nat} {clusters : List Nat} (chain : volume.Chain fs start clusters)
    (cluster : Nat) : ((volume.erase position).free start).fat cluster =
      if cluster ∈ Fat32Fs.visible clusters then 0 else volume.fat cluster := by
  rw [free_fat geometry ((erase_edit shaped inside).chain_iff.mpr chain),
    (erase_edit shaped inside).links]

variable (sound : volume.Sound fs)
include sound

theorem erase_live {clusters : List Nat} (owned : volume.Owns fs (.slot position) clusters)
    (contents : (volume.entry position).isDirectory = true → ∀ inner ∈ fs.positions clusters,
      Occupied (volume.entry inner) → (volume.entry inner).firstCluster < 2)
    {owner : Owner} (live : volume.Live fs owner) :
    (volume.erase position).Live fs owner ∨ owner = .slot position ∨ volume.start fs owner < 2 := by
  have edit := erase_edit shaped inside
  induction live with
  | root => exact .inl .root
  | @slot parent held place parentLive directory parentOwns member occupied ih =>
      by_cases erased : place = position
      · exact .inr (.inl (congrArg Owner.slot erased))
      rcases ih with kept | rfl | absent
      · have other : parent ≠ .slot position := by
          rintro rfl
          exact erase_not_live shaped inside kept
        refine .inl (.slot kept ?_ ((edit.owns_iff other).mpr parentOwns) member ?_)
        · rw [edit.directory_eq other, directory]
        · rw [edit.entries place erased]
          exact occupied
      · rw [parentOwns.unique geometry owned] at member
        exact .inr (.inr (contents directory place member occupied))
      · exact absurd (sound.directories parent parentLive directory) (by omega)

theorem slot_still_claimed (live : volume.Live fs (.slot position)) {clusters : List Nat}
    (owned : volume.Owns fs (.slot position) clusters)
    (after : ((volume.erase position).free (volume.entry position).firstCluster).Tight fs)
    {cluster : Nat} (hidden : cluster ∉ Fat32Fs.visible clusters) (used : volume.fat cluster ≠ 0) :
    ∃ owner held, (volume.erase position).Live fs owner ∧ owner ≠ .slot position ∧
      volume.Live fs owner ∧ volume.Owns fs owner held ∧ cluster ∈ held := by
  have edit := erase_edit shaped inside
  have chain : volume.Chain fs (volume.entry position).firstCluster clusters := owned
  have preserves := erase_free_preserves geometry shaped sound inside chain (.inr ⟨live, owned⟩)
  have kept := after cluster
    (by rw [erase_free_fat geometry shaped inside chain, if_neg hidden]; exact used)
  rw [preserves.claimed_iff geometry (edit.sound geometry sound)] at kept
  obtain ⟨owner, held, ownerLive, ownerOwns, member⟩ := kept
  rcases edit.live geometry ownerLive with rfl | ⟨other, before⟩
  · exact absurd ownerLive (erase_not_live shaped inside)
  · exact ⟨owner, held, ownerLive, other, before, (edit.owns_iff other).mp ownerOwns, member⟩

theorem slot_seen (live : volume.Live fs (.slot position)) {clusters : List Nat}
    (owned : volume.Owns fs (.slot position) clusters)
    (after : ((volume.erase position).free (volume.entry position).firstCluster).Tight fs) :
    clusters.length ≤ Fat32Fs.maxChain + 1 := by
  by_contra long
  cases behind : clusters.drop (Fat32Fs.maxChain + 1) with
  | nil =>
      rw [List.drop_eq_nil_iff] at behind
      exact long behind
  | cons cluster rest =>
      have parts := List.take_append_drop (Fat32Fs.maxChain + 1) clusters
      rw [behind] at parts
      have member : cluster ∈ clusters := by
        rw [← parts]
        simp
      have distinct := owned.distinct
      rw [← parts, List.nodup_append] at distinct
      have hidden : cluster ∉ Fat32Fs.visible clusters := fun shown =>
        distinct.2.2 cluster shown cluster List.mem_cons_self rfl
      obtain ⟨owner, held, _, other, before, ownerOwns, inHeld⟩ :=
        slot_still_claimed geometry shaped inside sound live owned after hidden (owned.not_free member)
      exact sound.apart owner _ before live other held clusters ownerOwns owned inHeld member

theorem slot_contents (live : volume.Live fs (.slot position))
    (directory : (volume.entry position).isDirectory = true) {clusters : List Nat}
    (owned : volume.Owns fs (.slot position) clusters)
    (after : ((volume.erase position).free (volume.entry position).firstCluster).Tight fs)
    {inner : Position} (member : inner ∈ fs.positions clusters)
    (occupied : Occupied (volume.entry inner)) : (volume.entry inner).firstCluster < 2 := by
  by_contra present
  have within := (Fat32Fs.mem_positions.mp member).1
  have innerLive : volume.Live fs (.slot inner) := .slot live directory owned member occupied
  obtain ⟨held, innerOwns⟩ := sound.owns _ innerLive
  have start : (volume.entry inner).firstCluster ∈ held :=
    innerOwns.mem_start (show 2 ≤ (volume.entry inner).firstCluster by omega)
  have different : Owner.slot inner ≠ .slot position := by
    intro same
    injection same with same
    subst same
    obtain ⟨parent, others, other, parentLive, _, parentOwns, inParent⟩ := live.parent
    exact sound.apart parent _ parentLive live other others clusters parentOwns owned
      (Fat32Fs.mem_positions.mp inParent).1 within
  have hidden : (volume.entry inner).firstCluster ∉ Fat32Fs.visible clusters := fun shown =>
    sound.apart _ _ innerLive live different held clusters innerOwns owned start
      (Chain.mem_visible shown)
  obtain ⟨owner, others, ownerLive', _, ownerLive, ownerOwns, ownerHas⟩ :=
    slot_still_claimed geometry shaped inside sound live owned after hidden (innerOwns.not_free start)
  have same : owner = .slot inner := by
    by_contra apart
    exact sound.apart owner _ ownerLive innerLive apart others held ownerOwns innerOwns ownerHas
      start
  -- the directory of the entry would still be in the tree
  subst same
  obtain ⟨parent, parentHeld, _, parentLive', parentDir, parentOwns', inParent⟩ := ownerLive'.parent
  have edit := erase_edit shaped inside
  rcases edit.live geometry parentLive' with rfl | ⟨parentOther, parentLive⟩
  · exact erase_not_live shaped inside parentLive'
  · exact sound.apart parent _ parentLive live parentOther parentHeld clusters
      ((edit.owns_iff parentOther).mp parentOwns') owned (Fat32Fs.mem_positions.mp inParent).1 within

theorem slot_balanced_iff (tight : volume.Tight fs) (live : volume.Live fs (.slot position)) :
    ((volume.erase position).free (volume.entry position).firstCluster).Balanced fs ↔
      volume.OwnsAll fs position := by
  obtain ⟨clusters, owned⟩ := sound.owns _ live
  have plain := live.occupied.2.2.2.2
  constructor
  · rintro ⟨after, _⟩
    refine ⟨fun dot => absurd dot plain, fun _ others otherOwns => ?_,
      fun _ directory others otherOwns inner member occupied => ?_⟩
    · exact slot_seen geometry shaped inside sound live otherOwns after
    · exact slot_contents geometry shaped inside sound live directory otherOwns after member occupied
  · intro all
    have edit := erase_edit shaped inside
    have chain : volume.Chain fs (volume.entry position).firstCluster clusters := owned
    have preserves := erase_free_preserves geometry shaped sound inside chain (.inr ⟨live, owned⟩)
    have sound' := edit.sound geometry sound
    refine ⟨fun cluster used => ?_, (preserves.sound geometry sound').owns⟩
    rw [erase_free_fat geometry shaped inside chain] at used
    have hidden : cluster ∉ Fat32Fs.visible clusters := by
      intro shown
      rw [if_pos shown] at used
      exact used rfl
    rw [if_neg hidden] at used
    obtain ⟨owner, held, ownerLive, ownerOwns, member⟩ := tight cluster used
    rw [preserves.claimed_iff geometry sound']
    rcases erase_live geometry shaped inside sound owned
        (fun directory => all.contents plain directory clusters owned) ownerLive with
      kept | rfl | absent
    · have other : owner ≠ .slot position := by
        rintro rfl
        exact erase_not_live shaped inside kept
      exact ⟨owner, held, kept, (edit.owns_iff other).mpr ownerOwns, member⟩
    · rw [ownerOwns.unique geometry owned] at member
      rw [Fat32Fs.visible, List.take_of_length_le (all.seen plain clusters owned)] at hidden
      exact absurd member hidden
    · rw [ownerOwns.none absent] at member
      cases member

theorem dot_live (dot : IsDot (volume.entry position)) {target : Owner}
    (targetLive : volume.Live fs target) {clusters : List Nat}
    (owned : volume.Owns fs target clusters) {owner : Owner} (live : volume.Live fs owner) :
    ((volume.erase position).free (volume.start fs target)).Live fs owner ∨
      ((volume.erase position).free (volume.start fs target)).Live fs target := by
  induction live with
  | root => exact .inl .root
  | @slot parent held place parentLive directory parentOwns member occupied ih =>
      rcases ih with kept | done
      · by_cases same : parent = target
        · exact .inr (same ▸ kept)
        have entries : ∀ {other : Position}, Occupied (volume.entry other) →
            ((volume.erase position).free (volume.start fs target)).entry other =
              volume.entry other :=
          fun recorded => (free_entry _ _ _).trans (erase_entry shaped inside dot recorded)
        refine .inl (.slot kept ?_ ?_ member ?_)
        · cases parent with
          | root => rfl
          | slot other =>
              rw [Volume.directory, entries parentLive.occupied]
              exact directory
        · have start : ((volume.erase position).free (volume.start fs target)).start fs parent =
              volume.start fs parent := by
            cases parent with
            | root => rfl
            | slot other => rw [Volume.start, Volume.start, entries parentLive.occupied]
          rw [Owns, start]
          refine parentOwns.congr fun cluster inParent => ?_
          rw [erase_free_fat geometry shaped inside owned, if_neg fun shown => ?_]
          exact sound.apart parent target parentLive targetLive same held clusters parentOwns owned
            inParent (Chain.mem_visible shown)
        · rw [entries occupied]
          exact occupied
      · exact .inr done

theorem dot_balanced (tight : volume.Tight fs) (dot : IsDot (volume.entry position))
    (absent : (volume.entry position).firstCluster < 2) :
    ((volume.erase position).free (volume.entry position).firstCluster).Balanced fs := by
  have chain : volume.Chain fs (volume.entry position).firstCluster [] := chain_absent absent
  have edit := erase_edit shaped inside
  have preserves := erase_free_preserves geometry shaped sound inside chain (.inl rfl)
  have sound' := edit.sound geometry sound
  refine ⟨fun cluster used => ?_, (preserves.sound geometry sound').owns⟩
  rw [erase_free_fat geometry shaped inside chain, if_neg (by simp [Fat32Fs.visible])] at used
  rw [preserves.claimed_iff geometry sound']
  obtain ⟨owner, held, live, owns, member⟩ := tight cluster used
  have other : owner ≠ .slot position := by
    rintro rfl
    exact live.occupied.2.2.2.2 dot
  exact ⟨owner, held, erase_dot_live shaped inside dot live, (edit.owns_iff other).mpr owns, member⟩

/-- Deleting a dot that stands for a directory frees a chain that is still linked. -/
theorem dot_unbalanced (dot : IsDot (volume.entry position))
    (lead : volume.LiveDir fs (volume.entry position).firstCluster) :
    ¬((volume.erase position).free (volume.entry position).firstCluster).Balanced fs := by
  rintro ⟨_, owns⟩
  obtain ⟨present, _⟩ := lead.chain sound
  obtain ⟨target, targetLive, _, starts⟩ := lead
  rw [← starts] at owns present
  obtain ⟨clusters, owned⟩ := sound.owns target targetLive
  have still : ((volume.erase position).free (volume.start fs target)).Live fs target := by
    rcases dot_live geometry shaped inside sound dot targetLive owned targetLive with kept | kept
    · exact kept
    · exact kept
  have start : ((volume.erase position).free (volume.start fs target)).start fs target =
      volume.start fs target := by
    cases target with
    | root => rfl
    | slot other =>
        rw [Volume.start, Volume.start, free_entry, erase_entry shaped inside dot targetLive.occupied]
  obtain ⟨held, after⟩ := owns target still
  rw [Owns, start] at after
  have first := after.mem_start present
  refine after.not_free first ?_
  rw [erase_free_fat geometry shaped inside owned, if_pos (owned.shown_start present)]

end Delete

def TargetOwnsAll (fs : Fat32Fs) (volume : Volume) (path : Path) : Prop :=
  ∀ dir position, volume.parentOf fs path = .ok dir →
    volume.findIn fs dir path = some position → volume.OwnsAll fs position

theorem delete_target_iff (geometry : fs.Geometry) (shaped : volume.Shaped fs)
    (sound : volume.Sound fs) (tight : volume.Tight fs) (dots : volume.DotsLead fs) {path : Path}
    (proper : volume.ProperPath fs path) (done : (volume.delete fs path).1 = .ok ()) :
    (volume.delete fs path).2.Balanced fs ↔ volume.TargetOwnsAll fs path := by
  simp only [delete] at done ⊢
  cases parent : volume.parentOf fs path with
  | error reason =>
      rw [parent] at done
      cases done
  | ok dir =>
      have live := Mounted.parent_live geometry sound proper parent
      rw [parent] at done
      simp only at done ⊢
      by_cases unnamed : fileName path = []
      · rw [if_pos unnamed] at done
        cases done
      rw [if_neg unnamed] at done ⊢
      cases found : volume.findIn fs dir path with
      | none =>
          rw [found] at done
          cases done
      | some position =>
          simp only
          have member := (find_spec found).1
          have inside := live.inside geometry sound member
          have target : volume.TargetOwnsAll fs path ↔ volume.OwnsAll fs position := by
            constructor
            · exact fun all => all dir position parent found
            · intro all other place parentOther foundOther
              rw [parent, Except.ok.injEq] at parentOther
              subst parentOther
              rw [found, Option.some.injEq] at foundOther
              exact foundOther ▸ all
          rw [target]
          by_cases dot : IsDot (volume.entry position)
          · rcases dots dir position live member dot with absent | lead
            · refine ⟨fun _ => ?_, fun _ => dot_balanced geometry shaped inside sound tight dot absent⟩
              exact ⟨fun _ => absent, fun plain => absurd dot plain, fun plain => absurd dot plain⟩
            · refine ⟨fun balanced => ?_, fun all => ?_⟩
              · exact absurd balanced (dot_unbalanced geometry shaped inside sound dot lead)
              · exact absurd (all.dot dot) (by have := (lead.chain sound).1; omega)
          · exact slot_balanced_iff geometry shaped inside sound tight
              (live.found geometry sound found dot)

theorem DotsLead.chain (geometry : fs.Geometry) (sound : volume.Sound fs) (dots : volume.DotsLead fs)
    {path : Path} (proper : volume.ProperPath fs path) {dir : Nat} {position : Position}
    (parent : volume.parentOf fs path = .ok dir) (found : volume.findIn fs dir path = some position) :
    ∃ clusters, volume.Chain fs (volume.entry position).firstCluster clusters := by
  have live := Mounted.parent_live geometry sound proper parent
  by_cases dot : IsDot (volume.entry position)
  · rcases dots dir position live (find_spec found).1 dot with absent | lead
    · exact ⟨[], chain_absent absent⟩
    · exact (lead.chain sound).2
  · exact sound.owns _ (live.found geometry sound found dot)

theorem live_listed (geometry : fs.Geometry) {owners : List Owner} {chains : Owner → List Nat}
    (root : .root ∈ owners) (owned : ∀ owner ∈ owners, volume.Owns fs owner (chains owner))
    (closed : ∀ owner ∈ owners, volume.directory owner = true →
      ∀ position ∈ fs.positions (chains owner), Occupied (volume.entry position) →
        .slot position ∈ owners) {owner : Owner} (live : volume.Live fs owner) : owner ∈ owners := by
  induction live with
  | root => exact root
  | @slot parent held place _ directory parentOwns member occupied ih =>
      rw [parentOwns.unique geometry (owned parent ih)] at member
      exact closed parent ih directory place member occupied

/-- A tree that has been listed is sound when no two of its chains share a cluster. -/
theorem sound_of_listed (geometry : fs.Geometry) {owners : List Owner} {chains : Owner → List Nat}
    (root : .root ∈ owners) (owned : ∀ owner ∈ owners, volume.Owns fs owner (chains owner))
    (closed : ∀ owner ∈ owners, volume.directory owner = true →
      ∀ position ∈ fs.positions (chains owner), Occupied (volume.entry position) →
        .slot position ∈ owners)
    (present : ∀ owner ∈ owners, volume.directory owner = true → 2 ≤ volume.start fs owner)
    (apart : ∀ owner ∈ owners, ∀ other ∈ owners, owner ≠ other →
      (chains owner).Disjoint (chains other)) : volume.Sound fs := by
  have listed {owner : Owner} (live : volume.Live fs owner) : owner ∈ owners :=
    live_listed geometry root owned closed live
  refine ⟨fun owner live => ⟨_, owned owner (listed live)⟩,
    fun owner live => present owner (listed live), ?_⟩
  intro owner other live otherLive different clusters others owns otherOwns
  rw [owns.unique geometry (owned owner (listed live)),
    otherOwns.unique geometry (owned other (listed otherLive))]
  exact apart owner (listed live) other (listed otherLive) different

end Volume

/-- Deleting leaves every allocated cluster in a chain of the tree, and every chain of the tree
allocated, exactly when the target owned all that was lost with it. -/
theorem delete_balanced_iff {fs : Fat32Fs} (geometry : fs.Geometry) {vfs : VfsManager}
    (mounted : Mounted fs vfs) {device device' : Device} (healthy : device.Healthy)
    (sound : (fs.view device).Sound fs) (tight : (fs.view device).Tight fs)
    (dots : (fs.view device).DotsLead fs) {path : Path} (proper : (fs.view device).ProperPath fs path)
    (done : vfs.delete path device = .ok () device') :
    (fs.view device').Balanced fs ↔ (fs.view device).TargetOwnsAll fs path := by
  obtain ⟨after, ran, _, holds⟩ := mounted.delete_runs geometry sound proper
    (fun _ _ => dots.chain geometry sound proper) device healthy rfl
  rw [done] at ran
  cases answer : ((fs.view device).delete fs path).1 with
  | error reason =>
      rw [answer] at ran
      cases ran
  | ok value =>
      rw [answer] at ran
      injection ran with _ same
      subst same
      rw [holds]
      exact Volume.delete_target_iff geometry (Fat32Fs.length_view_data geometry device) sound tight
        dots proper answer

/-! The tree of the nested session: the root, `/A`, `/F` and `/A/B`. -/

def nestedOwners : List Owner := [.root, .slot (2, 0), .slot (2, 1), .slot (3, 2)]

def nestedChains : Owner → List Nat
  | .root => [2]
  | .slot position => if position = (2, 0) then [3] else if position = (2, 1) then [5] else [4]

theorem nested_owns : ∀ owner ∈ nestedOwners,
    nestedVolume.Owns smallFs owner (nestedChains owner) := by
  have starts : ∀ owner ∈ nestedOwners,
      nestedChains owner = [nestedVolume.start smallFs owner] := by decide
  have ended : ∀ cluster ∈ [2, 3, 4, 5], fat32Eoc ≤ nestedVolume.fat cluster := by decide
  have bounded : ∀ owner ∈ nestedOwners, ∀ cluster ∈ nestedChains owner,
      cluster ∈ [2, 3, 4, 5] ∧ smallFs.Valid cluster := by decide
  intro owner member
  have inside := bounded owner member (nestedVolume.start smallFs owner)
    (by rw [starts owner member]; exact List.mem_cons_self)
  rw [starts owner member]
  exact Volume.chain_single inside.2 (ended _ inside.1)

theorem nested_root_slots : ∀ position ∈ smallFs.positions [2],
    Occupied (nestedVolume.entry position) ↔ position = (2, 0) ∨ position = (2, 1) := by
  decide +kernel

theorem nested_inner_slots : ∀ position ∈ smallFs.positions [3, 4],
    Occupied (nestedVolume.entry position) ↔ position = (3, 2) := by
  decide +kernel

theorem nested_live {owner : Owner} : nestedVolume.Live smallFs owner ↔ owner ∈ nestedOwners := by
  constructor
  · refine Volume.live_listed smallFs_geometry List.mem_cons_self nested_owns ?_
    intro owner member directory position inside occupied
    have folders : ∀ owner ∈ nestedOwners, nestedVolume.directory owner = true →
        owner = .root ∨ owner = .slot (2, 0) ∨ owner = .slot (3, 2) := by decide
    have inner : ∀ {cluster}, cluster ∈ [3, 4] → position ∈ smallFs.positions [cluster] →
        Owner.slot position ∈ nestedOwners := by
      intro cluster named inside
      rw [Fat32Fs.mem_positions] at inside
      have within : position ∈ smallFs.positions [3, 4] :=
        Fat32Fs.mem_positions.mpr ⟨List.mem_singleton.mp inside.1 ▸ named, inside.2⟩
      obtain rfl := (nested_inner_slots position within).mp occupied
      decide
    rcases folders owner member directory with rfl | rfl | rfl
    · rcases (nested_root_slots position inside).mp occupied with rfl | rfl
      · decide
      · decide
    · exact inner List.mem_cons_self inside
    · exact inner (List.mem_cons_of_mem _ List.mem_cons_self) inside
  · have top : ∀ position ∈ smallFs.positions [2], position = (2, 0) ∨ position = (2, 1) →
        nestedVolume.Live smallFs (.slot position) := fun position inside named =>
      .slot .root rfl (nested_owns .root List.mem_cons_self) inside
        ((nested_root_slots position inside).mpr named)
    intro member
    simp only [nestedOwners, List.mem_cons, List.not_mem_nil, or_false] at member
    rcases member with rfl | rfl | rfl | rfl
    · exact .root
    · exact top _ (by decide) (.inl rfl)
    · exact top _ (by decide) (.inr rfl)
    · have folder : nestedVolume.directory (.slot (2, 0)) = true := by decide
      refine .slot (top (2, 0) (by decide) (.inl rfl)) folder (nested_owns _ (by decide)) ?_ ?_
      · decide
      · exact (nested_inner_slots _ (by decide)).mpr rfl

theorem nested_tight : nestedVolume.Tight smallFs := by
  intro cluster used
  have valid : smallFs.Valid cluster := by
    by_contra outside
    rw [← nested_ready.2.2] at used
    exact used (if_neg outside)
  have owners : ∀ cluster < 10, nestedVolume.fat cluster ≠ 0 →
      ∃ owner ∈ nestedOwners, cluster ∈ nestedChains owner := by decide
  obtain ⟨owner, member, inside⟩ := owners cluster valid.2 used
  exact ⟨owner, _, nested_live.mpr member, nested_owns owner member, inside⟩

theorem nested_dots : nestedVolume.DotsLead smallFs := by
  rintro dir position ⟨owner, live, directory, rfl⟩ member dot
  have folders : ∀ owner ∈ nestedOwners, nestedVolume.directory owner = true →
      nestedChains owner ⊆ [2, 3, 4] := by decide
  have targets : ∀ position ∈ smallFs.positions [2, 3, 4], IsDot (nestedVolume.entry position) →
      ∃ owner ∈ nestedOwners, nestedVolume.directory owner = true ∧
        nestedVolume.start smallFs owner = (nestedVolume.entry position).firstCluster := by
    decide +kernel
  have listed := nested_live.mp live
  rw [Volume.slotsOf_eq smallFs_geometry (nested_owns owner listed)] at member
  obtain ⟨inside, bound⟩ := Fat32Fs.mem_positions.mp (Volume.slots_subset member)
  obtain ⟨target, targetListed, targetDirectory, starts⟩ := targets position
    (Fat32Fs.mem_positions.mpr ⟨folders owner listed directory inside, bound⟩) dot
  exact .inr ⟨target, nested_live.mpr targetListed, targetDirectory, starts⟩

theorem delete_balanced_file : ∃ device',
    nestedSession.vfs.delete [0x2F, 0x46] nestedSession.device = .ok () device' ∧
      ((smallFs.view device').Balanced smallFs ↔
        (smallFs.view nestedSession.device).TargetOwnsAll smallFs [0x2F, 0x46]) := by
  obtain ⟨⟨mounted, healthy, sound⟩, _, holds⟩ := nested_ready
  have proper : nestedVolume.ProperPath smallFs [0x2F, 0x46] := by decide
  have answer : (nestedVolume.delete smallFs [0x2F, 0x46]).1 = .ok () := by decide
  have tight := nested_tight
  have dots := nested_dots
  rw [← holds] at proper answer tight dots
  obtain ⟨device', ran, _, _⟩ := mounted.delete_runs smallFs_geometry sound proper
    (fun _ _ => dots.chain smallFs_geometry sound proper) nestedSession.device healthy rfl
  rw [answer] at ran
  exact ⟨device', ran, delete_balanced_iff smallFs_geometry mounted healthy sound tight dots proper ran⟩

/-- `delete("/A")` frees the directory `/A` and loses the cluster of `/A/B`. -/
theorem delete_directory_leaks : nestedVolume.Tight smallFs ∧ nestedVolume.DotsLead smallFs ∧
    smallFs.view nestedSession.device = nestedVolume ∧
    ∃ device', nestedSession.vfs.delete [0x2F, 0x41] nestedSession.device = .ok () device' ∧
      ¬(smallFs.view device').Balanced smallFs := by
  obtain ⟨⟨mounted, healthy, sound⟩, _, holds⟩ := nested_ready
  refine ⟨nested_tight, nested_dots, holds, ?_⟩
  have proper : nestedVolume.ProperPath smallFs [0x2F, 0x41] := by decide
  have answer : (nestedVolume.delete smallFs [0x2F, 0x41]).1 = .ok () := by decide
  have target : nestedVolume.parentOf smallFs [0x2F, 0x41] = .ok 2 ∧
      nestedVolume.findIn smallFs 2 [0x2F, 0x41] = some (2, 0) := by decide
  have folder : ¬IsDot (nestedVolume.entry (2, 0)) ∧
      (nestedVolume.entry (2, 0)).isDirectory = true ∧
      ¬(nestedVolume.entry (3, 2)).firstCluster < 2 := by decide
  have lost : ¬nestedVolume.TargetOwnsAll smallFs [0x2F, 0x41] := by
    intro all
    have whole := all 2 (2, 0) target.1 target.2
    refine folder.2.2 (whole.contents folder.1 folder.2.1 _ (nested_owns (.slot (2, 0)) (by decide))
      (3, 2) (by decide) ?_)
    exact (nested_inner_slots _ (by decide)).mpr rfl
  have shaped := Fat32Fs.length_view_data smallFs_geometry nestedSession.device
  have tight := nested_tight
  have dots := nested_dots
  rw [← holds] at proper answer tight dots lost
  obtain ⟨device', ran, _, after⟩ := mounted.delete_runs smallFs_geometry sound proper
    (fun _ _ => dots.chain smallFs_geometry sound proper) nestedSession.device healthy rfl
  rw [answer] at ran
  refine ⟨device', ran, ?_⟩
  rw [after, Volume.delete_target_iff smallFs_geometry shaped sound tight dots proper answer]
  exact lost

end ArcadiaOs.Fs
