import ArcadiaOs.Lib.Machine
import ArcadiaOs.Lib.Ring

/-!
The scancode queue of `terminal/mod.rs`.  The shell takes a scancode out in four steps, and
the keyboard interrupt can put one in before each of them.
-/

namespace ArcadiaOs.Terminal

open Lib

def scancodeBufferSize : Nat := 256

structure ScancodeQueue where
  buffer : Nat → UInt8
  head : Nat
  tail : Nat

/-- The interrupt handler runs to its end; it answers whether the scancode was taken. -/
def pushScancode (scancode : UInt8) (queue : ScancodeQueue) : Bool × ScancodeQueue :=
  let next := (queue.tail + 1) % scancodeBufferSize
  if next = queue.head then (false, queue)
  else
    (true, { queue with buffer := Function.update queue.buffer queue.tail scancode, tail := next })

/-- What `pop_scancode` does next, with what it has read so far. -/
inductive PopPoint
  | loadHead
  | loadTail (head : Nat)
  | readSlot (head : Nat)
  | storeHead (head : Nat) (scancode : UInt8)

inductive PopAnswer
  | running
  | returned (scancode : Option UInt8)

/-- After it has returned, the next call starts over. -/
def popScancode : PopPoint → ScancodeQueue → PopAnswer × PopPoint × ScancodeQueue
  | .loadHead, queue => (.running, .loadTail queue.head, queue)
  | .loadTail head, queue =>
      if head = queue.tail then (.returned none, .loadHead, queue)
      else (.running, .readSlot head, queue)
  -- Interrupts are off while the slot is read.
  | .readSlot head, queue => (.running, .storeHead head (queue.buffer head), queue)
  | .storeHead head scancode, queue =>
      (.returned (some scancode), .loadHead, { queue with head := (head + 1) % scancodeBufferSize })

structure Keyboard where
  queue : ScancodeQueue
  point : PopPoint

inductive Turn
  | interrupt (scancode : UInt8)
  | shell

inductive Answer
  | pushed (scancode : UInt8) (accepted : Bool)
  | popped (answer : PopAnswer)

def keyboardMachine : Machine Keyboard Turn Answer where
  step keyboard turn :=
    match turn with
    | .interrupt scancode =>
        let (accepted, queue) := pushScancode scancode keyboard.queue
        (.pushed scancode accepted, { keyboard with queue })
    | .shell =>
        let (answer, point, queue) := popScancode keyboard.point keyboard.queue
        (.popped answer, { queue, point })

/-- The queue as the kernel starts with it; the buffer may hold anything. -/
def initialKeyboard (buffer : Nat → UInt8) : Keyboard where
  queue := { buffer, head := 0, tail := 0 }
  point := .loadHead

abbrev History := List (Event Keyboard Turn Answer)

/-- The scancodes that pushes have taken, in order. -/
def accepted (past : History) : List UInt8 :=
  past.filterMap fun event =>
    match event.answer with
    | .pushed scancode true => some scancode
    | _ => none

/-- The scancodes that pops have returned, in order; each comes with a store to the head. -/
def popped (past : History) : List UInt8 :=
  past.filterMap fun event =>
    match event.answer with
    | .popped (.returned (some scancode)) => some scancode
    | _ => none

/-- The steps of the running pop since the last one has returned. -/
def pending (past : History) : Nat :=
  past.foldl (fun steps event =>
    match event.answer with
    | .pushed _ _ => steps
    | .popped .running => steps + 1
    | .popped (.returned _) => 0) 0

/-- What a turn does, given the turns before it.  A pop is at its tail load after one step. -/
structure Fifo (past : History) (keyboard : Keyboard) (turn : Turn) : Prop where
  drops : ∀ scancode, (keyboardMachine.step keyboard turn).1 = .pushed scancode false →
    (accepted past).length = (popped past).length + 255
  accepts : ∀ scancode, (keyboardMachine.step keyboard turn).1 = .pushed scancode true →
    (accepted past).length < (popped past).length + 255
  pops : ∀ scancode, (keyboardMachine.step keyboard turn).1 = .popped (.returned (some scancode)) →
    (accepted past)[(popped past).length]? = some scancode
  empties : (keyboardMachine.step keyboard turn).1 = .popped (.returned none) →
    popped past = accepted past
  starts : turn = .shell → pending past = 0 ∨ pending past = 2 →
    (keyboardMachine.step keyboard turn).1 = .popped .running
  loadsTail : turn = .shell → pending past = 1 → (keyboardMachine.step keyboard turn).1 =
    .popped (if popped past = accepted past then .returned none else .running)
  delivers : turn = .shell → pending past = 3 →
    ∃ scancode, (keyboardMachine.step keyboard turn).1 = .popped (.returned (some scancode))
  returns : pending past < 4
  inBounds : keyboard.queue.head < scancodeBufferSize ∧ keyboard.queue.tail < scancodeBufferSize

def PopPoint.steps : PopPoint → Nat
  | .loadHead => 0
  | .loadTail _ => 1
  | .readSlot _ => 2
  | .storeHead _ _ => 3

theorem PopPoint.steps_lt (point : PopPoint) : point.steps < 4 := by
  cases point <;> simp [steps]

theorem PopPoint.of_steps_one {point : PopPoint} (one : point.steps = 1) :
    ∃ head, point = .loadTail head := by
  cases point <;> simp_all [steps]

theorem PopPoint.of_steps_three {point : PopPoint} (three : point.steps = 3) :
    ∃ head scancode, point = .storeHead head scancode := by
  cases point <;> simp_all [steps]

/-- What the interrupted pop has read is still so. -/
def PointSound (point : PopPoint) (queue : ScancodeQueue) (items : List UInt8) : Prop :=
  match point with
  | .loadHead => True
  | .loadTail head => head = queue.head
  | .readSlot head => head = queue.head ∧ items ≠ []
  | .storeHead head scancode => head = queue.head ∧ items.head? = some scancode

/-- The queue holds the accepted scancodes that have not been released. -/
structure Queued (past : History) (keyboard : Keyboard) (items : List UInt8) : Prop where
  split : accepted past = popped past ++ items
  room : items.length < scancodeBufferSize
  head : keyboard.queue.head = (popped past).length % scancodeBufferSize
  tail : keyboard.queue.tail = ((popped past).length + items.length) % scancodeBufferSize
  holds : Ring.Holds scancodeBufferSize keyboard.queue.buffer (popped past).length items
  point : PointSound keyboard.point keyboard.queue items
  steps : pending past = keyboard.point.steps

inductive Does : Keyboard → Turn → Answer → Keyboard → Prop
  | drop (queue : ScancodeQueue) (point : PopPoint) (scancode : UInt8)
      (full : (queue.tail + 1) % scancodeBufferSize = queue.head) :
      Does ⟨queue, point⟩ (.interrupt scancode) (.pushed scancode false) ⟨queue, point⟩
  | push (queue : ScancodeQueue) (point : PopPoint) (scancode : UInt8)
      (free : (queue.tail + 1) % scancodeBufferSize ≠ queue.head) :
      Does ⟨queue, point⟩ (.interrupt scancode) (.pushed scancode true)
        ⟨{ queue with
            buffer := Function.update queue.buffer queue.tail scancode
            tail := (queue.tail + 1) % scancodeBufferSize }, point⟩
  | loadHead (queue : ScancodeQueue) :
      Does ⟨queue, .loadHead⟩ .shell (.popped .running) ⟨queue, .loadTail queue.head⟩
  | foundEmpty (queue : ScancodeQueue) (head : Nat) (empty : head = queue.tail) :
      Does ⟨queue, .loadTail head⟩ .shell (.popped (.returned none)) ⟨queue, .loadHead⟩
  | foundItem (queue : ScancodeQueue) (head : Nat) (apart : head ≠ queue.tail) :
      Does ⟨queue, .loadTail head⟩ .shell (.popped .running) ⟨queue, .readSlot head⟩
  | readSlot (queue : ScancodeQueue) (head : Nat) :
      Does ⟨queue, .readSlot head⟩ .shell (.popped .running)
        ⟨queue, .storeHead head (queue.buffer head)⟩
  | pop (queue : ScancodeQueue) (head : Nat) (scancode : UInt8) :
      Does ⟨queue, .storeHead head scancode⟩ .shell (.popped (.returned (some scancode)))
        ⟨{ queue with head := (head + 1) % scancodeBufferSize }, .loadHead⟩

theorem step_does (keyboard : Keyboard) (turn : Turn) : Does keyboard turn
    (keyboardMachine.step keyboard turn).1 (keyboardMachine.step keyboard turn).2 := by
  obtain ⟨queue, point⟩ := keyboard
  cases turn with
  | interrupt scancode =>
      by_cases full : (queue.tail + 1) % scancodeBufferSize = queue.head
      · simp only [keyboardMachine, pushScancode, if_pos full]
        exact .drop queue point scancode full
      · simp only [keyboardMachine, pushScancode, if_neg full]
        exact .push queue point scancode full
  | shell =>
      cases point with
      | loadHead => exact .loadHead queue
      | loadTail head =>
          by_cases empty : head = queue.tail
          · simp only [keyboardMachine, popScancode, if_pos empty]
            exact .foundEmpty queue head empty
          · simp only [keyboardMachine, popScancode, if_neg empty]
            exact .foundItem queue head empty
      | readSlot head => exact .readSlot queue head
      | storeHead head scancode => exact .pop queue head scancode

section Steps

variable {past : History} {keyboard : Keyboard} {items : List UInt8}

@[simp] theorem accepted_append (past : History) (event : Event Keyboard Turn Answer) :
    accepted (past ++ [event]) = accepted past ++ accepted [event] := List.filterMap_append

@[simp] theorem popped_append (past : History) (event : Event Keyboard Turn Answer) :
    popped (past ++ [event]) = popped past ++ popped [event] := List.filterMap_append

theorem pending_append (past : History) (event : Event Keyboard Turn Answer) :
    pending (past ++ [event]) = match event.answer with
      | .pushed _ _ => pending past
      | .popped .running => pending past + 1
      | .popped (.returned _) => 0 := by
  simp only [pending, List.foldl_append, List.foldl_cons, List.foldl_nil]

theorem Queued.full_iff (queued : Queued past keyboard items) :
    (keyboard.queue.tail + 1) % scancodeBufferSize = keyboard.queue.head ↔ items.length = 255 := by
  rw [queued.tail, queued.head, Ring.next_cell, Ring.full_iff queued.room, scancodeBufferSize]
  omega

theorem Queued.empty_iff (queued : Queued past keyboard items) :
    keyboard.queue.head = keyboard.queue.tail ↔ items = [] := by
  rw [queued.tail, queued.head, Ring.empty_iff queued.room, List.length_eq_zero_iff]

theorem Queued.length_accepted (queued : Queued past keyboard items) :
    (accepted past).length = (popped past).length + items.length := by
  rw [queued.split, List.length_append]

theorem PointSound.push {point : PopPoint} {queue queue' : ScancodeQueue}
    (sound : PointSound point queue items) (same : queue'.head = queue.head) (scancode : UInt8) :
    PointSound point queue' (items ++ [scancode]) := by
  cases point with
  | loadHead => trivial
  | loadTail head => exact sound.trans same.symm
  | readSlot head => exact ⟨sound.1.trans same.symm, by simp⟩
  | storeHead head value =>
      refine ⟨sound.1.trans same.symm, ?_⟩
      rw [List.head?_append, sound.2]
      rfl

theorem Queued.quiet (queued : Queued past keyboard items) {event : Event Keyboard Turn Answer}
    {keyboard' : Keyboard} (no_push : accepted [event] = []) (no_pop : popped [event] = [])
    (queue : keyboard'.queue = keyboard.queue)
    (point : PointSound keyboard'.point keyboard.queue items)
    (steps : pending (past ++ [event]) = keyboard'.point.steps) :
    Queued (past ++ [event]) keyboard' items where
  split := by
    rw [accepted_append, popped_append, no_push, no_pop, List.append_nil, List.append_nil]
    exact queued.split
  room := queued.room
  head := by
    rw [popped_append, no_pop, List.append_nil, queue]
    exact queued.head
  tail := by
    rw [popped_append, no_pop, List.append_nil, queue]
    exact queued.tail
  holds := by
    rw [popped_append, no_pop, List.append_nil, queue]
    exact queued.holds
  point := by
    rw [queue]
    exact point
  steps := steps

theorem Queued.push {queue : ScancodeQueue} {point : PopPoint}
    (queued : Queued past ⟨queue, point⟩ items) {scancode : UInt8}
    {event : Event Keyboard Turn Answer} (pushed : accepted [event] = [scancode])
    (no_pop : popped [event] = []) (steps : pending (past ++ [event]) = point.steps)
    (free : (queue.tail + 1) % scancodeBufferSize ≠ queue.head) :
    Queued (past ++ [event])
      ⟨{ queue with
          buffer := Function.update queue.buffer queue.tail scancode
          tail := (queue.tail + 1) % scancodeBufferSize }, point⟩ (items ++ [scancode]) where
  split := by
    rw [accepted_append, popped_append, pushed, no_pop, List.append_nil, queued.split,
      List.append_assoc]
  room := by
    rw [Ne, queued.full_iff] at free
    have room := queued.room
    rw [scancodeBufferSize] at *
    rw [List.length_append, List.length_singleton]
    omega
  head := by
    rw [popped_append, no_pop, List.append_nil]
    exact queued.head
  tail := by
    rw [popped_append, no_pop, List.append_nil, List.length_append, List.length_singleton,
      queued.tail, Ring.next_cell, Nat.add_assoc]
  holds := by
    rw [popped_append, no_pop, List.append_nil, queued.tail]
    exact queued.holds.push queued.room scancode
  point := queued.point.push rfl scancode
  steps := steps

theorem Queued.pop {queue : ScancodeQueue} {point : PopPoint} {scancode : UInt8} {rest : List UInt8}
    (queued : Queued past ⟨queue, point⟩ (scancode :: rest)) {event : Event Keyboard Turn Answer}
    (no_push : accepted [event] = []) (pop : popped [event] = [scancode])
    (steps : pending (past ++ [event]) = 0) :
    Queued (past ++ [event])
      ⟨{ queue with head := (queue.head + 1) % scancodeBufferSize }, .loadHead⟩ rest where
  split := by
    rw [accepted_append, popped_append, no_push, pop, List.append_nil, queued.split,
      List.append_assoc, List.singleton_append]
  room := Nat.lt_of_succ_lt queued.room
  head := by
    rw [popped_append, pop, List.length_append, List.length_singleton, queued.head, Ring.next_cell]
  tail := by
    rw [popped_append, pop, List.length_append, List.length_singleton, queued.tail,
      List.length_cons]
    congr 1
    omega
  holds := by
    rw [popped_append, pop, List.length_append, List.length_singleton]
    exact queued.holds.pop
  point := trivial
  steps := steps

theorem Queued.step (queued : Queued past keyboard items) {turn : Turn} {answer : Answer}
    {keyboard' : Keyboard} (does : Does keyboard turn answer keyboard') :
    ∃ items', Queued (past ++ [⟨keyboard, turn, answer, keyboard'⟩]) keyboard' items' := by
  have sound := queued.point
  have steps := queued.steps
  cases does with
  | drop queue point scancode full =>
      exact ⟨items, queued.quiet rfl rfl rfl sound ((pending_append _ _).trans steps)⟩
  | push queue point scancode free =>
      exact ⟨items ++ [scancode], queued.push rfl rfl ((pending_append _ _).trans steps) free⟩
  | loadHead queue =>
      exact ⟨items, queued.quiet rfl rfl rfl rfl ((pending_append _ _).trans (by rw [steps]; rfl))⟩
  | foundEmpty queue head empty =>
      exact ⟨items, queued.quiet rfl rfl rfl trivial (pending_append _ _)⟩
  | foundItem queue head apart =>
      refine ⟨items, queued.quiet rfl rfl rfl ⟨sound, fun none_left => apart ?_⟩
        ((pending_append _ _).trans (by rw [steps]; rfl))⟩
      exact sound.trans (queued.empty_iff.mpr none_left)
  | readSlot queue head =>
      obtain ⟨at_head, some_item⟩ := sound
      obtain ⟨item, rest, rfl⟩ := List.exists_cons_of_ne_nil some_item
      refine ⟨_, queued.quiet rfl rfl rfl ⟨at_head, ?_⟩
        ((pending_append _ _).trans (by rw [steps]; rfl))⟩
      rw [at_head, queued.head, queued.holds.front]
      rfl
  | pop queue head scancode =>
      obtain ⟨at_head, first⟩ := sound
      change head = queue.head at at_head
      subst at_head
      obtain ⟨rest, rfl⟩ := List.head?_eq_some_iff.mp first
      exact ⟨rest, queued.pop rfl rfl (pending_append _ _)⟩

theorem Queued.start (buffer : Nat → UInt8) : Queued [] (initialKeyboard buffer) [] where
  split := rfl
  room := by decide
  head := rfl
  tail := rfl
  holds := Ring.Holds.nil _ _
  point := trivial
  steps := rfl

theorem Queued.fifo (queued : Queued past keyboard items) (turn : Turn) : Fifo past keyboard turn := by
  have size := queued.length_accepted
  have sound := queued.point
  have steps := queued.steps
  have does := step_does keyboard turn
  generalize (keyboardMachine.step keyboard turn).2 = keyboard' at does
  constructor
  case drops =>
    intro scancode dropped
    rw [dropped] at does
    cases does with
    | drop queue point scancode full => rw [size, queued.full_iff.mp full]
  case accepts =>
    intro scancode taken
    rw [taken] at does
    cases does with
    | push queue point scancode free =>
        have short : items.length ≠ 255 := fun full => free (queued.full_iff.mpr full)
        have room := queued.room
        rw [scancodeBufferSize] at room
        omega
  case pops =>
    intro scancode returned
    rw [returned] at does
    cases does with
    | pop queue head scancode =>
        rw [queued.split, List.getElem?_append_right (Nat.le_refl _), Nat.sub_self,
          ← List.head?_eq_getElem?]
        exact sound.2
  case empties =>
    intro returned
    rw [returned] at does
    cases does with
    | foundEmpty queue head empty =>
        have none_left := queued.empty_iff.mp (sound.symm.trans empty)
        rw [queued.split, none_left, List.append_nil]
  case starts =>
    rintro rfl early
    obtain ⟨queue, point⟩ := keyboard
    rw [steps] at early
    cases point with
    | loadHead => rfl
    | readSlot head => rfl
    | loadTail head => simp [PopPoint.steps] at early
    | storeHead head scancode => simp [PopPoint.steps] at early
  case loadsTail =>
    rintro rfl second
    obtain ⟨queue, point⟩ := keyboard
    obtain ⟨head, rfl⟩ := PopPoint.of_steps_one (steps.symm.trans second)
    obtain rfl : head = queue.head := sound
    have none_left : popped past = accepted past ↔ queue.head = queue.tail := by
      rw [queued.empty_iff, queued.split]
      simp
    by_cases empty : queue.head = queue.tail
    · simp [keyboardMachine, popScancode, none_left, empty]
    · simp [keyboardMachine, popScancode, none_left, empty]
  case delivers =>
    rintro rfl last
    obtain ⟨queue, point⟩ := keyboard
    obtain ⟨head, scancode, rfl⟩ := PopPoint.of_steps_three (steps.symm.trans last)
    exact ⟨scancode, rfl⟩
  case returns =>
    rw [steps]
    exact keyboard.point.steps_lt
  case inBounds =>
    rw [queued.head, queued.tail]
    exact ⟨Nat.mod_lt _ (by decide), Nat.mod_lt _ (by decide)⟩

end Steps

/-- The scancode queue is a FIFO under interrupts: however pushes come between the steps of pops,
each turn is right about the turns before it, and what is popped is the front of what is accepted.
Each pop returns, and it returns a scancode when one is there at its tail load. -/
theorem scancode_fifo (buffer : Nat → UInt8) (turns : List Turn) :
    keyboardMachine.Lawful Fifo [] (initialKeyboard buffer) turns ∧
      popped (keyboardMachine.events (initialKeyboard buffer) turns) <+:
        accepted (keyboardMachine.events (initialKeyboard buffer) turns) := by
  have preserved : ∀ past keyboard turn, (∃ items, Queued past keyboard items) →
      ∃ items, Queued (past ++ [⟨keyboard, turn, (keyboardMachine.step keyboard turn).1,
        (keyboardMachine.step keyboard turn).2⟩]) (keyboardMachine.step keyboard turn).2 items := by
    rintro past keyboard turn ⟨items, queued⟩
    exact queued.step (step_does keyboard turn)
  constructor
  · apply keyboardMachine.lawful_of_invariant Fifo _ _ preserved
    · exact ⟨[], Queued.start buffer⟩
    · rintro past keyboard turn ⟨items, queued⟩
      exact queued.fifo turn
  · obtain ⟨items, queued⟩ := keyboardMachine.history_invariant _ preserved [] _ turns
      ⟨[], Queued.start buffer⟩
    rw [List.nil_append] at queued
    rw [queued.split]
    exact List.prefix_append _ _

/-- A scancode pushed before a pop is popped, and one pushed in the middle of it is left. -/
theorem scancode_fifo_popped :
    popped (keyboardMachine.events (initialKeyboard fun _ => 0)
        [.interrupt 0x1E, .shell, .shell, .interrupt 0x9E, .shell, .shell]) = [0x1E] ∧
      popped (keyboardMachine.events (initialKeyboard fun _ => 0)
          [.interrupt 0x1E, .shell, .shell, .interrupt 0x9E, .shell, .shell]) <+:
        accepted (keyboardMachine.events (initialKeyboard fun _ => 0)
          [.interrupt 0x1E, .shell, .shell, .interrupt 0x9E, .shell, .shell]) :=
  ⟨rfl, (scancode_fifo _ _).2⟩

end ArcadiaOs.Terminal
