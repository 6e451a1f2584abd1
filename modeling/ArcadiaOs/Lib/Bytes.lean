import Mathlib.Data.List.Basic
import Mathlib.Tactic.Ring

/-!
Little-endian numbers as byte lists, and byte-addressed memories read and written
through them.
-/

namespace ArcadiaOs.Lib

/-- The `width` low bytes of a number, least significant first. -/
def leBytes : Nat → Nat → List UInt8
  | 0, _ => []
  | width + 1, value => UInt8.ofNat value :: leBytes width (value / 256)

def ofLeBytes : List UInt8 → Nat
  | [] => 0
  | byte :: rest => byte.toNat + 256 * ofLeBytes rest

@[simp] theorem length_leBytes (width value : Nat) : (leBytes width value).length = width := by
  induction width generalizing value with
  | zero => rfl
  | succ width ih => simp [leBytes, ih]

theorem ofLeBytes_lt (bytes : List UInt8) : ofLeBytes bytes < 256 ^ bytes.length := by
  induction bytes with
  | nil => simp [ofLeBytes]
  | cons byte rest ih =>
      have bound := byte.toNat_lt
      simp only [ofLeBytes, List.length_cons, Nat.pow_succ]
      omega

theorem ofLeBytes_leBytes (width value : Nat) :
    ofLeBytes (leBytes width value) = value % 256 ^ width := by
  induction width generalizing value with
  | zero => simp [leBytes, ofLeBytes, Nat.mod_one]
  | succ width ih =>
      simp only [leBytes, ofLeBytes, ih, UInt8.toNat_ofNat']
      have split : value % (256 * 256 ^ width)
          = value % 256 + 256 * (value / 256 % 256 ^ width) := Nat.mod_mul
      have radix : 256 ^ (width + 1) = 256 * 256 ^ width := Nat.pow_succ'
      rw [radix, split]

theorem leBytes_eq_map (width value : Nat) :
    leBytes width value = (List.range width).map fun index => UInt8.ofNat (value / 256 ^ index) := by
  induction width generalizing value with
  | zero => rfl
  | succ width ih =>
      simp [leBytes, ih, List.range_succ_eq_map, Nat.pow_succ', Nat.div_div_eq_div_mul]

theorem ofLeBytes_append (front back : List UInt8) :
    ofLeBytes (front ++ back) = ofLeBytes front + 256 ^ front.length * ofLeBytes back := by
  induction front with
  | nil => simp [ofLeBytes]
  | cons byte rest ih =>
      simp only [List.cons_append, ofLeBytes, ih, List.length_cons, Nat.pow_succ']
      ring

theorem ofLeBytes_inj {left right : List UInt8} (long : left.length = right.length) :
    ofLeBytes left = ofLeBytes right ↔ left = right := by
  refine ⟨fun same => ?_, congrArg ofLeBytes⟩
  induction left generalizing right with
  | nil => exact (List.length_eq_zero_iff.mp long.symm).symm
  | cons byte rest ih =>
      cases right with
      | nil => simp at long
      | cons other others =>
          have bound := byte.toNat_lt
          have otherBound := other.toNat_lt
          simp only [ofLeBytes, List.length_cons, Nat.add_right_cancel_iff] at same long
          rw [ih long (by omega), UInt8.toNat_inj.mp (show byte.toNat = other.toNat by omega)]

def zeros (count : Nat) : List UInt8 := List.replicate count 0

def slice (bytes : List UInt8) (offset count : Nat) : List UInt8 := (bytes.drop offset).take count

/-- `part` copied over `bytes` from `offset` on. -/
def splice (bytes : List UInt8) (offset : Nat) (part : List UInt8) : List UInt8 :=
  bytes.take offset ++ part ++ bytes.drop (offset + part.length)

def byteAt (bytes : List UInt8) (offset : Nat) : UInt8 := bytes.getD offset 0

def bytesAt (bytes : List UInt8) (offset count : Nat) : List UInt8 :=
  (List.range count).map fun index => byteAt bytes (offset + index)

@[simp] theorem length_zeros (count : Nat) : (zeros count).length = count := List.length_replicate

theorem length_slice {bytes : List UInt8} {offset count : Nat}
    (inside : offset + count ≤ bytes.length) : (slice bytes offset count).length = count := by
  simp only [slice, List.length_take, List.length_drop]
  omega

theorem length_splice {bytes part : List UInt8} {offset : Nat}
    (inside : offset + part.length ≤ bytes.length) :
    (splice bytes offset part).length = bytes.length := by
  simp only [splice, List.length_append, List.length_take, List.length_drop]
  omega

theorem slice_front {front : List UInt8} (back : List UInt8) {offset count : Nat}
    (inside : offset + count ≤ front.length) :
    slice (front ++ back) offset count = slice front offset count := by
  rw [slice, slice, List.drop_append_of_le_length (by omega), List.take_append_of_le_length]
  rw [List.length_drop]
  omega

theorem slice_behind (front back : List UInt8) (offset count : Nat) :
    slice (front ++ back) (front.length + offset) count = slice back offset count := by
  simp [slice]

theorem slice_middle (front part back : List UInt8) :
    slice (front ++ part ++ back) front.length part.length = part := by
  simp [slice]

theorem ofLeBytes_slice {bytes before behind : List UInt8} {offset width value : Nat}
    (split : bytes = before ++ leBytes width value ++ behind) (place : before.length = offset)
    (small : value < 256 ^ width) : ofLeBytes (slice bytes offset width) = value := by
  have middle := slice_middle before (leBytes width value) behind
  rw [length_leBytes, place] at middle
  rw [split, middle, ofLeBytes_leBytes, Nat.mod_eq_of_lt small]

theorem getElem?_slice (bytes : List UInt8) (offset count index : Nat) :
    (slice bytes offset count)[index]? = if index < count then bytes[offset + index]? else none := by
  simp only [slice, List.getElem?_take, List.getElem?_drop]

theorem getElem?_splice {bytes part : List UInt8} {offset : Nat}
    (inside : offset + part.length ≤ bytes.length) (index : Nat) :
    (splice bytes offset part)[index]? =
      if offset ≤ index ∧ index < offset + part.length then part[index - offset]?
      else bytes[index]? := by
  simp only [splice, List.append_assoc, List.getElem?_append, List.length_take, List.getElem?_take,
    List.getElem?_drop]
  have start : min offset bytes.length = offset := by omega
  rw [start]
  by_cases before : index < offset
  · simp only [before, if_true]
    rw [if_neg (by omega)]
  · simp only [before, if_false]
    by_cases within : index - offset < part.length
    · rw [if_pos within, if_pos (by omega)]
    · rw [if_neg within, if_neg (by omega)]
      congr 1
      omega

theorem slice_splice_same {bytes part : List UInt8} {offset : Nat}
    (inside : offset + part.length ≤ bytes.length) :
    slice (splice bytes offset part) offset part.length = part := by
  apply List.ext_getElem?
  intro index
  rw [getElem?_slice, getElem?_splice inside]
  by_cases within : index < part.length
  · rw [if_pos within, if_pos (by omega), Nat.add_sub_cancel_left]
  · rw [if_neg within, List.getElem?_eq_none (by omega)]

theorem slice_all {bytes : List UInt8} {count : Nat} (all : bytes.length ≤ count) :
    slice bytes 0 count = bytes := by
  rw [slice, List.drop_zero, List.take_of_length_le all]

theorem length_bytesAt (bytes : List UInt8) (offset count : Nat) :
    (bytesAt bytes offset count).length = count := by
  simp only [bytesAt, List.length_map, List.length_range]

theorem byteAt_zeros (count offset : Nat) : byteAt (zeros count) offset = 0 := by
  simp only [byteAt, zeros, List.getD_eq_getElem?_getD, List.getElem?_replicate]
  split <;> rfl

theorem byteAt_splice {bytes part : List UInt8} {offset : Nat}
    (inside : offset + part.length ≤ bytes.length) (index : Nat) :
    byteAt (splice bytes offset part) index =
      if offset ≤ index ∧ index < offset + part.length then byteAt part (index - offset)
      else byteAt bytes index := by
  simp only [byteAt, List.getD_eq_getElem?_getD, getElem?_splice inside]
  split <;> rfl

theorem length_splice_grown {bytes part : List UInt8} {offset : Nat} (inside : offset ≤ bytes.length) :
    (splice bytes offset part).length = max bytes.length (offset + part.length) := by
  rw [splice, List.length_append, List.length_append, List.length_take, List.length_drop]
  omega

theorem byteAt_beyond {bytes : List UInt8} {index : Nat} (beyond : bytes.length ≤ index) :
    byteAt bytes index = 0 := by
  rw [byteAt, List.getD_eq_getElem?_getD, List.getElem?_eq_none beyond, Option.getD_none]

theorem byteAt_append (front back : List UInt8) (index : Nat) : byteAt (front ++ back) index =
    if index < front.length then byteAt front index else byteAt back (index - front.length) := by
  simp only [byteAt, List.getD_eq_getElem?_getD, List.getElem?_append]
  split <;> rfl

theorem byteAt_take (bytes : List UInt8) (count index : Nat) :
    byteAt (bytes.take count) index = if index < count then byteAt bytes index else 0 := by
  simp only [byteAt, List.getD_eq_getElem?_getD, List.getElem?_take]
  split <;> rfl

theorem byteAt_drop (bytes : List UInt8) (count index : Nat) :
    byteAt (bytes.drop count) index = byteAt bytes (count + index) := by
  rw [byteAt, byteAt, List.getD_eq_getElem?_getD, List.getD_eq_getElem?_getD, List.getElem?_drop]

theorem byteAt_slice (bytes : List UInt8) (offset count index : Nat) :
    byteAt (slice bytes offset count) index =
      if index < count then byteAt bytes (offset + index) else 0 := by
  simp only [byteAt, List.getD_eq_getElem?_getD, getElem?_slice]
  split <;> rfl

theorem byteAt_splice_grown {bytes part : List UInt8} {offset : Nat} (inside : offset ≤ bytes.length)
    (index : Nat) : byteAt (splice bytes offset part) index =
      if offset ≤ index ∧ index < offset + part.length then byteAt part (index - offset)
      else byteAt bytes index := by
  have front : (bytes.take offset).length = offset := by
    rw [List.length_take]
    omega
  rw [splice, byteAt_append, List.length_append, byteAt_append, front, byteAt_take, byteAt_drop]
  by_cases before : index < offset
  · rw [if_pos (by omega), if_pos before, if_pos before, if_neg (by omega)]
  · rw [if_neg before]
    by_cases within : index < offset + part.length
    · rw [if_pos within, if_pos (by omega)]
    · rw [if_neg within, if_neg (by omega)]
      congr 1
      omega

theorem bytes_ext {left right : List UInt8} (long : left.length = right.length)
    (same : ∀ index, index < right.length → byteAt left index = byteAt right index) :
    left = right := by
  apply List.ext_getElem long
  intro index inLeft inRight
  have equal := same index inRight
  rwa [byteAt, byteAt, List.getD_eq_getElem?_getD, List.getD_eq_getElem?_getD,
    List.getElem?_eq_getElem inLeft, List.getElem?_eq_getElem inRight] at equal

/-- The bytes cut or padded with zeros to `size`. -/
def fit (size : Nat) (bytes : List UInt8) : List UInt8 := (bytes ++ zeros size).take size

theorem length_fit (size : Nat) (bytes : List UInt8) : (fit size bytes).length = size := by
  simp only [fit, List.length_take, List.length_append, length_zeros]
  omega

theorem byteAt_fit (size : Nat) (bytes : List UInt8) (index : Nat) :
    byteAt (fit size bytes) index = if index < size then byteAt bytes index else 0 := by
  rw [fit, byteAt_take, byteAt_append, byteAt_zeros]
  by_cases inside : index < bytes.length
  · rw [if_pos inside]
  · rw [if_neg inside, byteAt_beyond (by omega)]

theorem fit_eq_splice {size : Nat} {bytes : List UInt8} (short : bytes.length ≤ size) :
    splice (zeros size) 0 bytes = fit size bytes := by
  have inside : 0 + bytes.length ≤ (zeros size).length := by
    rw [length_zeros]
    omega
  apply bytes_ext
  · rw [length_splice inside, length_zeros, length_fit]
  · intro index bound
    rw [length_fit] at bound
    rw [byteAt_splice inside, byteAt_fit, if_pos bound, byteAt_zeros, Nat.sub_zero]
    by_cases within : index < bytes.length
    · rw [if_pos (by omega)]
    · rw [if_neg (by omega), byteAt_beyond (by omega)]

theorem fit_take (size : Nat) (bytes : List UInt8) : fit size (bytes.take size) = fit size bytes := by
  apply bytes_ext
  · rw [length_fit, length_fit]
  · intro index bound
    rw [length_fit] at bound
    rw [byteAt_fit, byteAt_fit, byteAt_take]
    simp only [if_pos bound]

theorem bytesAt_congr {left right : List UInt8} {offset leftOffset count : Nat}
    (same : ∀ index, index < count →
      byteAt left (leftOffset + index) = byteAt right (offset + index)) :
    bytesAt left leftOffset count = bytesAt right offset count := by
  apply List.map_congr_left
  intro index member
  exact same index (List.mem_range.mp member)

theorem byteAt_bytesAt (bytes : List UInt8) (offset count index : Nat) :
    byteAt (bytesAt bytes offset count) index =
      if index < count then byteAt bytes (offset + index) else 0 := by
  by_cases inside : index < count
  · rw [if_pos inside, byteAt, List.getD_eq_getElem?_getD, bytesAt, List.getElem?_map,
      List.getElem?_range inside, Option.map_some, Option.getD_some]
  · rw [if_neg inside, byteAt_beyond (by rw [length_bytesAt]; omega)]

theorem bytesAt_bytesAt {offset count width : Nat} (inside : offset + count ≤ width)
    (bytes : List UInt8) (start : Nat) :
    bytesAt (bytesAt bytes start width) offset count = bytesAt bytes (start + offset) count := by
  apply bytesAt_congr
  intro index bound
  rw [byteAt_bytesAt, if_pos (by omega), Nat.add_assoc]

theorem flatMap_bytesAt (bytes : List UInt8) (start width count : Nat) :
    (List.range count).flatMap (fun index => bytesAt bytes (start + index * width) width) =
      bytesAt bytes start (count * width) := by
  induction count with
  | zero => simp only [List.range_zero, List.flatMap_nil, Nat.zero_mul, bytesAt, List.map_nil]
  | succ count ih =>
      have turn : List.range ((count + 1) * width) =
          List.range (count * width) ++ (List.range width).map (count * width + ·) := by
        rw [Nat.add_mul, Nat.one_mul, List.range_add]
      rw [List.range_succ, List.flatMap_append, ih, List.flatMap_singleton, bytesAt, bytesAt, bytesAt,
        turn, List.map_append, List.map_map]
      simp only [Function.comp_def, Nat.add_assoc]

theorem bytesAt_add (bytes : List UInt8) (offset front back : Nat) :
    bytesAt bytes offset (front + back) =
      bytesAt bytes offset front ++ bytesAt bytes (offset + front) back := by
  simp [bytesAt, List.range_add, Function.comp_def, Nat.add_assoc]

theorem leBytes_ofLeBytes (bytes : List UInt8) : leBytes bytes.length (ofLeBytes bytes) = bytes := by
  refine (ofLeBytes_inj (length_leBytes _ _)).mp ?_
  rw [ofLeBytes_leBytes, Nat.mod_eq_of_lt (ofLeBytes_lt bytes)]

/-- Records of one width, written one behind the other, can be told apart. -/
theorem flatMap_inj {α : Type} {encode : α → List UInt8} {width : Nat}
    (wide : ∀ record, (encode record).length = width)
    (inj : ∀ left right, encode left = encode right → left = right) {left right : List α}
    (long : left.length = right.length) (same : left.flatMap encode = right.flatMap encode) :
    left = right := by
  induction left generalizing right with
  | nil => exact (List.length_eq_zero_iff.mp long.symm).symm
  | cons first rest ih =>
      cases right with
      | nil => cases long
      | cons other others =>
          rw [List.flatMap_cons, List.flatMap_cons] at same
          obtain ⟨head, tail⟩ := List.append_inj same (by rw [wide, wide])
          rw [inj _ _ head, ih (Nat.succ.inj long) tail]

theorem bytesAt_eq_slice {bytes : List UInt8} {offset count : Nat}
    (inside : offset + count ≤ bytes.length) :
    bytesAt bytes offset count = slice bytes offset count := by
  apply List.ext_getElem?
  intro index
  rw [getElem?_slice, bytesAt, List.getElem?_map]
  by_cases within : index < count
  · rw [if_pos within, List.getElem?_range within, List.getElem?_eq_getElem (by omega)]
    simp only [Option.map_some, byteAt, List.getD_eq_getElem?_getD]
    rw [List.getElem?_eq_getElem (by omega), Option.getD_some]
  · rw [if_neg within, List.getElem?_eq_none (by rw [List.length_range]; omega)]
    rfl

theorem bytesAt_splice_same {bytes part : List UInt8} {offset : Nat}
    (inside : offset + part.length ≤ bytes.length) :
    bytesAt (splice bytes offset part) offset part.length = part := by
  rw [bytesAt_eq_slice (by rw [length_splice inside]; exact inside), slice_splice_same inside]

theorem bytesAt_splice_apart {bytes part : List UInt8} {offset other count : Nat}
    (inside : offset + part.length ≤ bytes.length)
    (apart : other + count ≤ offset ∨ offset + part.length ≤ other) :
    bytesAt (splice bytes offset part) other count = bytesAt bytes other count := by
  apply bytesAt_congr
  intro index bound
  rw [byteAt_splice inside, if_neg (by omega)]

theorem bytesAt_splice_within {bytes part : List UInt8} {start offset count : Nat}
    (fits : offset + part.length ≤ count) (inside : start + count ≤ bytes.length) :
    bytesAt (splice bytes (start + offset) part) start count =
      splice (bytesAt bytes start count) offset part := by
  have within : offset + part.length ≤ (bytesAt bytes start count).length := by
    rw [length_bytesAt]
    exact fits
  apply bytes_ext
  · rw [length_bytesAt, length_splice within, length_bytesAt]
  · intro index bound
    rw [length_splice within, length_bytesAt] at bound
    rw [byteAt_bytesAt, if_pos bound, byteAt_splice (by omega), byteAt_splice within,
      byteAt_bytesAt, if_pos bound]
    by_cases written : offset ≤ index ∧ index < offset + part.length
    · rw [if_pos written, if_pos (by omega)]
      congr 1
      omega
    · rw [if_neg written, if_neg (by omega)]

theorem splice_whole {bytes part : List UInt8} (whole : bytes.length ≤ part.length) :
    splice bytes 0 part = part := by
  simp only [splice, List.take_zero, List.nil_append, Nat.zero_add]
  rw [List.drop_of_length_le whole, List.append_nil]

theorem splice_front_back {bytes part : List UInt8} {offset next stop : Nat}
    (start : offset + part.length = next) (inside : next ≤ bytes.length) (order : next ≤ stop)
    (between : List UInt8) :
    (splice bytes offset part).take next ++ between ++ (splice bytes offset part).drop stop =
      bytes.take offset ++ (part ++ between) ++ bytes.drop stop := by
  have front : (bytes.take offset ++ part).length = next := by
    rw [List.length_append, List.length_take]
    omega
  have back : (splice bytes offset part).drop stop = bytes.drop stop := by
    rw [splice, start, ← Nat.add_sub_cancel' order, ← List.drop_drop, List.drop_left' front,
      List.drop_drop]
  rw [back, splice, List.take_left' front]
  simp only [List.append_assoc]

theorem splice_nil (bytes : List UInt8) (offset : Nat) : splice bytes offset [] = bytes := by
  simp only [splice, List.append_nil, List.length_nil, Nat.add_zero, List.take_append_drop]

theorem splice_splice_next {bytes part : List UInt8} {offset : Nat}
    (inside : offset + part.length ≤ bytes.length) (next : List UInt8) :
    splice (splice bytes offset part) (offset + part.length) next =
      splice bytes offset (part ++ next) := by
  have front : (bytes.take offset ++ part).length = offset + part.length := by
    rw [List.length_append, List.length_take]
    omega
  have taken : (splice bytes offset part).take (offset + part.length) = bytes.take offset ++ part :=
    List.take_left' front
  have dropped : (splice bytes offset part).drop (offset + part.length + next.length) =
      bytes.drop (offset + (part ++ next).length) := by
    rw [splice, ← List.drop_drop, List.drop_left' front, List.drop_drop, List.length_append,
      Nat.add_assoc]
  rw [splice, taken, dropped, splice]
  simp only [List.append_assoc]

theorem splice_parts {bytes : List UInt8} {offset room : Nat} (inside : offset + room ≤ bytes.length)
    (first rest : List UInt8) :
    splice (splice bytes offset (first.take room)) (offset + min room first.length)
        (rest.take (room - first.length)) = splice bytes offset ((first ++ rest).take room) := by
  have copied : (first.take room).length = min room first.length := List.length_take
  have next := @splice_splice_next bytes (first.take room) offset (by omega)
    (rest.take (room - first.length))
  rw [copied] at next
  rw [next, List.take_append]

/-- Consecutive parts of the given lengths, from `offset` on. -/
def segments (bytes : List UInt8) : Nat → List Nat → List (List UInt8)
  | _, [] => []
  | offset, count :: rest => slice bytes offset count :: segments bytes (offset + count) rest

theorem flatten_segments (bytes : List UInt8) (offset : Nat) (counts : List Nat) :
    (segments bytes offset counts).flatten = slice bytes offset counts.sum := by
  induction counts generalizing offset with
  | nil => rw [List.sum_nil, slice, List.take_zero]; rfl
  | cons count rest ih =>
      rw [segments, List.flatten_cons, ih, List.sum_cons, slice, slice, slice, List.take_add,
        List.drop_drop]

theorem segments_eq_map_iff {bytes : List UInt8} {part : Nat → List UInt8} {offset : Nat}
    {counts : List Nat} : segments bytes offset counts = counts.map part ↔
      ∀ front count back, counts = front ++ count :: back →
        slice bytes (offset + front.sum) count = part count := by
  induction counts generalizing offset with
  | nil => exact ⟨fun _ front count back split => by simp at split, fun _ => rfl⟩
  | cons first rest ih =>
      rw [segments, List.map_cons, List.cons.injEq, ih]
      constructor
      · rintro ⟨here, later⟩ front count back split
        cases front with
        | nil =>
            injection split with same _
            subst same
            exact here
        | cons head tail =>
            injection split with same split
            subst same
            rw [List.sum_cons, ← Nat.add_assoc]
            exact later tail count back split
      · intro all
        refine ⟨all [] first rest rfl, fun front count back split => ?_⟩
        rw [Nat.add_assoc, ← List.sum_cons]
        exact all (first :: front) count back (by rw [split, List.cons_append])

theorem flatMap_slice (bytes : List UInt8) (width count : Nat) :
    (List.range count).flatMap (fun index => slice bytes (index * width) width) =
      bytes.take (count * width) := by
  induction count with
  | zero => simp only [List.range_zero, List.flatMap_nil, Nat.zero_mul, List.take_zero]
  | succ count ih =>
      rw [List.range_succ, List.flatMap_append, ih, Nat.add_mul, Nat.one_mul, List.take_add]
      simp only [List.flatMap_cons, List.flatMap_nil, List.append_nil, slice]

/-- A memory maps every address to a byte. -/
abbrev Memory := Nat → UInt8

namespace Memory

def read (memory : Memory) (address count : Nat) : List UInt8 :=
  (List.range count).map fun offset => memory (address + offset)

def readU64 (memory : Memory) (address : Nat) : Nat := ofLeBytes (memory.read address 8)

def write (memory : Memory) (address : Nat) (bytes : List UInt8) : Memory := fun place =>
  if address ≤ place ∧ place < address + bytes.length then byteAt bytes (place - address)
  else memory place

def writeU64 (memory : Memory) (address value : Nat) : Memory :=
  memory.write address (leBytes 8 value)

def fill (memory : Memory) (address count : Nat) (byte : UInt8) : Memory := fun place =>
  if address ≤ place ∧ place < address + count then byte else memory place

/-- `count` bytes copied to `target`; the ranges do not overlap. -/
def copy (memory : Memory) (source target count : Nat) : Memory := fun place =>
  if target ≤ place ∧ place < target + count then memory (source + (place - target))
  else memory place

theorem read_add (memory : Memory) (address front back : Nat) :
    memory.read address (front + back) = memory.read address front ++ memory.read (address + front) back := by
  simp [read, List.range_add, Function.comp_def, Nat.add_assoc]

theorem write_other {memory : Memory} {address place : Nat} {bytes : List UInt8}
    (apart : place < address ∨ address + bytes.length ≤ place) :
    memory.write address bytes place = memory place := if_neg (by omega)

theorem write_inside {memory : Memory} {address offset : Nat} {bytes : List UInt8}
    (inside : offset < bytes.length) :
    memory.write address bytes (address + offset) = byteAt bytes offset := by
  rw [write, if_pos (by omega), Nat.add_sub_cancel_left]

theorem writeU64_other {memory : Memory} {address place value : Nat}
    (apart : place < address ∨ address + 8 ≤ place) :
    memory.writeU64 address value place = memory place :=
  write_other (by rw [length_leBytes]; exact apart)

theorem fill_other {memory : Memory} {address count place : Nat} {byte : UInt8}
    (apart : place < address ∨ address + count ≤ place) :
    memory.fill address count byte place = memory place := if_neg (by omega)

theorem fill_inside {memory : Memory} {address count place : Nat} {byte : UInt8}
    (above : address ≤ place) (below : place < address + count) :
    memory.fill address count byte place = byte := if_pos ⟨above, below⟩

theorem copy_other {memory : Memory} {source target count place : Nat}
    (apart : place < target ∨ target + count ≤ place) :
    memory.copy source target count place = memory place := if_neg (by omega)

theorem copy_inside {memory : Memory} {source target count offset : Nat} (inside : offset < count) :
    memory.copy source target count (target + offset) = memory (source + offset) := by
  rw [copy, if_pos (by omega), Nat.add_sub_cancel_left]

theorem readU64_moved {memory memory' : Memory} {source target : Nat}
    (same : ∀ offset < 8, memory' (target + offset) = memory (source + offset)) :
    memory'.readU64 target = memory.readU64 source := by
  rw [readU64, readU64, read, read]
  congr 1
  apply List.map_congr_left
  intro offset member
  exact same offset (List.mem_range.mp member)

theorem readU64_congr {memory memory' : Memory} {address : Nat}
    (same : ∀ place, address ≤ place → place < address + 8 → memory' place = memory place) :
    memory'.readU64 address = memory.readU64 address :=
  readU64_moved fun offset inside => same _ (by omega) (by omega)

theorem readU64_writeU64_same (memory : Memory) (address value : Nat) :
    (memory.writeU64 address value).readU64 address = value % 2 ^ 64 := by
  have whole : bytesAt (leBytes 8 value) 0 8 = leBytes 8 value := by
    rw [bytesAt_eq_slice (by rw [length_leBytes]), slice_all (by rw [length_leBytes])]
  have bytes : (memory.writeU64 address value).read address 8 = leBytes 8 value := by
    rw [← whole]
    apply List.map_congr_left
    intro offset member
    rw [List.mem_range] at member
    rw [writeU64, write_inside (by rw [length_leBytes]; exact member), Nat.zero_add]
  have width : 256 ^ 8 = 2 ^ 64 := by decide
  rw [readU64, bytes, ofLeBytes_leBytes, width]

theorem readU64_zero {memory : Memory} {address : Nat}
    (zero : ∀ place, address ≤ place → place < address + 8 → memory place = 0) :
    memory.readU64 address = 0 := by
  have same : memory.readU64 address = readU64 (fun _ => 0) address := readU64_congr zero
  have blank : read (fun _ => 0) address 8 = leBytes 8 0 := rfl
  rw [same, readU64, blank, ofLeBytes_leBytes, Nat.zero_mod]

theorem readU64_lt (memory : Memory) (address : Nat) : memory.readU64 address < 2 ^ 64 := by
  have bound := ofLeBytes_lt (memory.read address 8)
  rw [read, List.length_map, List.length_range] at bound
  exact bound

end Memory

end ArcadiaOs.Lib
