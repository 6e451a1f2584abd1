import ArcadiaOs.Process.UserPointer

/-!
The dispatch of system calls (`process/syscall.rs`).  The pointer check compares a
range with the kernel half only, so a range that reaches the canonical hole makes
`VirtAddr::new` panic unless an unmapped page in front of the hole ends the walk.
-/

namespace ArcadiaOs.Process

open Lib

namespace SyscallNumber

def write : Nat := 1
def exit : Nat := 2
def yield : Nat := 3

end SyscallNumber

/-- What comes of a system call; `exit` does not return to its caller. -/
inductive SyscallOutcome
  | returned (value : Nat)
  | exits (code : Nat)
  | panic
  deriving DecidableEq

def syscallDispatch (memory : Memory) (pml4 number arg0 arg1 : Nat) : SyscallOutcome :=
  if number = SyscallNumber.write then
    match sysWrite memory pml4 arg0 arg1 with
    | some (value, _) => .returned value
    | none => .panic
  else if number = SyscallNumber.exit then .exits (arg0 % 2 ^ 32)
  else if number = SyscallNumber.yield then .returned 0
  else .returned (2 ^ 64 - 1)

theorem validatePages_panics_iff (memory : Memory) (pml4 : Nat) {endPage addr : Nat}
    (user : endPage + 4096 ≤ kernelHalf) (aligned : addr % 4096 = 0)
    (reached : addr ≤ 2 ^ 47 ∨ addr ≤ endPage) :
    validatePages memory pml4 endPage addr = none ↔
      2 ^ 47 ≤ endPage ∧
      ∀ address, addr ≤ address → address < 2 ^ 47 → LeafMapped (walk memory pml4 address) := by
  induction addr using validatePages.induct memory pml4 endPage with
  | case1 addr inside panicked =>
      have high := checkPage_panicked aligned panicked
      rw [validatePages_panicked inside panicked]
      refine ⟨fun _ => ⟨by omega, fun address above below => ?_⟩, fun _ => rfl⟩
      omega
  | case2 addr inside rejected =>
      obtain ⟨low, unmapped⟩ := checkPage_rejected aligned (by omega) rejected
      rw [validatePages_rejected inside rejected]
      refine iff_of_false (Option.some_ne_none _) ?_
      rintro ⟨_, mapped⟩
      exact absurd (mapped addr (Nat.le_refl _) low) unmapped
  | case3 addr inside next checked later ih =>
      obtain ⟨nextAligned, bounded, mapped⟩ := checkPage_advanced aligned (by omega) checked
      rw [validatePages_advanced inside checked, ih nextAligned (.inl bounded)]
      constructor
      · rintro ⟨hole, pass⟩
        refine ⟨hole, fun address above below => ?_⟩
        by_cases strided : address < next
        · exact mapped address above strided
        · exact pass address (by omega) below
      · rintro ⟨hole, pass⟩
        exact ⟨hole, fun address above below => pass address (by omega) below⟩
  | case4 addr outside =>
      rw [validatePages, if_neg outside]
      refine iff_of_false (Option.some_ne_none _) ?_
      rintro ⟨hole, _⟩
      omega

/-- The check refuses a request, or ends its walk, before it meets the hole. -/
def AvoidsHole (memory : Memory) (pml4 ptr len : Nat) : Prop :=
  ptr = 0 ∨ len = 0 ∨ kernelHalf ≤ ptr ∨ kernelHalf < ptr + len ∨ ptr + len ≤ 2 ^ 47 ∨
  ∃ address, ptr ≤ address ∧ address < 2 ^ 47 ∧ ¬LeafMapped (walk memory pml4 address)

theorem validateUserPtr_panics_iff (memory : Memory) (pml4 ptr len : Nat) :
    validateUserPtr memory pml4 ptr len = none ↔ ¬AvoidsHole memory pml4 ptr len := by
  simp only [validateUserPtr, AvoidsHole, not_or, not_exists, not_and, not_not]
  by_cases empty : ptr = 0 ∨ len = 0
  · rw [if_pos empty]
    refine iff_of_false (Option.some_ne_none _) ?_
    rintro ⟨nonzero, nonempty, _⟩
    omega
  by_cases kernel : ptr ≥ kernelHalf
  · rw [if_neg empty, if_pos kernel]
    refine iff_of_false (Option.some_ne_none _) ?_
    rintro ⟨_, _, low, _⟩
    omega
  by_cases crossing : min (ptr + len) (2 ^ 64 - 1) < ptr ∨
      min (ptr + len) (2 ^ 64 - 1) > kernelHalf
  · rw [if_neg empty, if_neg kernel, if_pos crossing]
    simp only [kernelHalf] at kernel crossing ⊢
    refine iff_of_false (Option.some_ne_none _) ?_
    rintro ⟨_, _, _, low, _⟩
    omega
  rw [if_neg empty, if_neg kernel, if_neg crossing]
  simp only [kernelHalf] at kernel crossing ⊢
  have stop : min (ptr + len) (2 ^ 64 - 1) = ptr + len := by omega
  rw [stop, validatePages_panics_iff memory pml4 (by simp only [kernelHalf]; omega) (by omega)
    (by omega)]
  constructor
  · rintro ⟨hole, mapped⟩
    refine ⟨by omega, by omega, by omega, by omega, by omega, fun address above below => ?_⟩
    exact mapped address (by omega) below
  · rintro ⟨_, _, _, _, hole, mapped⟩
    refine ⟨by omega, fun address above below => ?_⟩
    -- the byte of the request that lies on the page of `address`
    have page : address / 4096 = max ptr (address / 4096 * 4096) / 4096 := by omega
    rw [walk_page memory pml4 page]
    exact mapped _ (by omega) (by omega)

theorem validateUserPtr_refuses_hole {memory : Memory} {pml4 ptr len address : Nat}
    (below : address < ptr + len) (hole : canonical address = false) :
    validateUserPtr memory pml4 ptr len ≠ some true := by
  intro valid
  obtain ⟨_, _, low, _⟩ := (validateUserPtr_iff memory pml4 ptr len).mp valid
  rw [canonical_low (by omega)] at hole
  cases hole

theorem sysWrite_returns (memory : Memory) (pml4 buf len : Nat) :
    sysWrite memory pml4 buf len = none ∧ validateUserPtr memory pml4 buf len = none ∧ len ≠ 0 ∨
    validateUserPtr memory pml4 buf len ≠ none ∧
      ∃ value reads, sysWrite memory pml4 buf len = some (value, reads) ∧
        (value = 0 ∨ value = len ∨ value = 2 ^ 64 - 1) := by
  simp only [sysWrite]
  by_cases empty : len = 0
  · rw [if_pos empty]
    refine .inr ⟨?_, 0, [], rfl, .inl rfl⟩
    rw [validateUserPtr, if_pos (.inr empty)]
    exact Option.some_ne_none _
  rw [if_neg empty]
  cases validateUserPtr memory pml4 buf len with
  | none => exact .inl ⟨rfl, rfl, empty⟩
  | some valid =>
      cases valid with
      | true => exact .inr ⟨Option.some_ne_none _, len, _, rfl, .inr (.inl rfl)⟩
      | false => exact .inr ⟨Option.some_ne_none _, 2 ^ 64 - 1, [], rfl, .inr (.inr rfl)⟩

/-- A system call other than exit returns, and its check refuses what is not canonical, exactly
when a write avoids the hole. -/
theorem syscallDispatch_returns (memory : Memory) (pml4 number arg0 arg1 : Nat)
    (notExit : number ≠ SyscallNumber.exit) :
    ((∃ value, syscallDispatch memory pml4 number arg0 arg1 = .returned value ∧
        (value = 0 ∨ value = arg1 ∨ value = 2 ^ 64 - 1)) ∧
      (number = SyscallNumber.write →
        (∃ address, arg0 ≤ address ∧ address < arg0 + arg1 ∧ canonical address = false) →
        validateUserPtr memory pml4 arg0 arg1 = some false)) ↔
      (number = SyscallNumber.write → AvoidsHole memory pml4 arg0 arg1) := by
  by_cases writes : number = SyscallNumber.write
  · have panics := validateUserPtr_panics_iff memory pml4 arg0 arg1
    simp only [syscallDispatch, writes, if_true, true_implies]
    rcases sysWrite_returns memory pml4 arg0 arg1 with ⟨halted, panicked, _⟩ |
      ⟨checked, value, reads, done, answer⟩
    · rw [halted]
      refine ⟨fun returns => ?_, fun avoids => absurd avoids (panics.mp panicked)⟩
      obtain ⟨⟨value, returned, _⟩, _⟩ := returns
      cases returned
    · rw [done]
      refine ⟨fun _ => ?_, fun _ => ⟨⟨value, rfl, answer⟩, ?_⟩⟩
      · by_contra hits
        exact checked (panics.mpr hits)
      · rintro ⟨address, _, below, hole⟩
        have refused : validateUserPtr memory pml4 arg0 arg1 ≠ some true :=
          validateUserPtr_refuses_hole below hole
        cases result : validateUserPtr memory pml4 arg0 arg1 with
        | none => exact absurd result checked
        | some valid =>
            cases valid with
            | true => exact absurd result refused
            | false => rfl
  · simp only [syscallDispatch, if_neg writes, if_neg notExit]
    refine ⟨fun _ write => absurd write writes, fun _ => ⟨?_, fun write => absurd write writes⟩⟩
    split
    · exact ⟨0, rfl, .inl rfl⟩
    · exact ⟨2 ^ 64 - 1, rfl, .inr (.inr rfl)⟩

theorem syscallDispatch_returns_boot :
    SyscallNumber.write ≠ SyscallNumber.exit ∧
      ∃ value, syscallDispatch bootTables 0x1000 SyscallNumber.write 0x100000 16 =
        .returned value := by
  refine ⟨by decide, ?_⟩
  have returns := (syscallDispatch_returns bootTables 0x1000 SyscallNumber.write 0x100000 16
    (by decide)).mpr fun _ => .inr (.inr (.inr (.inr (.inl (by omega)))))
  obtain ⟨⟨value, returned, _⟩, _⟩ := returns
  exact ⟨value, returned⟩

theorem syscallDispatch_panics_at_hole :
    syscallDispatch bootTables 0x1000 SyscallNumber.write 0x800000000000 1 = .panic := by
  have checked : validateUserPtr bootTables 0x1000 0x800000000000 1 = none := by
    rw [validateUserPtr_panics_iff]
    simp only [AvoidsHole, kernelHalf, not_or, not_exists, not_and]
    refine ⟨by omega, by omega, by omega, by omega, by omega, fun address above below => ?_⟩
    omega
  simp only [syscallDispatch, sysWrite, checked, if_true]
  rfl

end ArcadiaOs.Process
