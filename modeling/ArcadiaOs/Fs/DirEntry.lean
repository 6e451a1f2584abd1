import ArcadiaOs.Fs.DirCore

/-!
Directory entries in the bytes of a cluster: an entry written to a slot is read back,
the other slots keep theirs, and an 8.3 name survives its encoding.
-/

namespace ArcadiaOs.Fs

open Lib

theorem u16_le (value : UInt16) : UInt16.ofNat (ofLeBytes (leBytes 2 value.toNat)) = value := by
  have bound := value.toNat_lt
  rw [ofLeBytes_leBytes, Nat.mod_eq_of_lt (by omega)]
  exact UInt16.ofNat_toNat

theorem u32_le (value : UInt32) : UInt32.ofNat (ofLeBytes (leBytes 4 value.toNat)) = value := by
  have bound := value.toNat_lt
  rw [ofLeBytes_leBytes, Nat.mod_eq_of_lt (by omega)]
  exact UInt32.ofNat_toNat

namespace Fat32DirEntry

theorem length_toBytes (entry : Fat32DirEntry) : entry.toBytes.length = entrySize := by
  simp only [toBytes, List.length_append, entry.nameLength, entry.extLength, length_leBytes,
    List.length_cons, List.length_nil, entrySize]

theorem readAt_congr {left right : List UInt8} {offset other : Nat}
    (same : ∀ index, index < entrySize → byteAt left (offset + index) = byteAt right (other + index)) :
    readAt left offset = readAt right other := by
  have bytes : ∀ start count, start + count ≤ entrySize →
      bytesAt left (offset + start) count = bytesAt right (other + start) count := by
    intro start count inside
    apply bytesAt_congr
    intro index bound
    rw [Nat.add_assoc, Nat.add_assoc]
    exact same (start + index) (by omega)
  have name := bytes 0 8 (by decide)
  simp only [Nat.add_zero] at name
  simp only [readAt, u16At, u32At, name, bytes 8 3 (by decide), same 11 (by decide),
    same 12 (by decide), same 13 (by decide), bytes 14 2 (by decide), bytes 16 2 (by decide),
    bytes 18 2 (by decide), bytes 20 2 (by decide), bytes 22 2 (by decide), bytes 24 2 (by decide),
    bytes 26 2 (by decide), bytes 28 4 (by decide)]

theorem readAt_toBytes (entry : Fat32DirEntry) : readAt entry.toBytes 0 = entry := by
  obtain ⟨name, ext, attributes, reservedNt, createTimeTenth, createTime, createDate, accessDate,
    firstClusterHi, modifyTime, modifyDate, firstClusterLo, fileSize, nameLength, extLength⟩ := entry
  match name, nameLength, ext, extLength with
  | [n0, n1, n2, n3, n4, n5, n6, n7], _, [e0, e1, e2], _ =>
      have times := u16_le createTime
      have dates := u16_le createDate
      have accesses := u16_le accessDate
      have highs := u16_le firstClusterHi
      have modifies := u16_le modifyTime
      have modifyDates := u16_le modifyDate
      have lows := u16_le firstClusterLo
      have sizes := u32_le fileSize
      simp only [leBytes] at times dates accesses highs modifies modifyDates lows sizes
      simp only [readAt, toBytes, leBytes, bytesAt, byteAt, u16At, u32At, List.range,
        List.range.loop, List.map_cons, List.map_nil, List.cons_append, List.nil_append,
        List.getD_cons_succ, List.getD_cons_zero, Nat.zero_add, Nat.add_zero, times, dates,
        accesses, highs, modifies, modifyDates, lows, sizes]

theorem readAt_splice_same (entry : Fat32DirEntry) {buf : List UInt8} {offset : Nat}
    (inside : offset + entrySize ≤ buf.length) :
    readAt (splice buf offset entry.toBytes) offset = entry := by
  have long := entry.length_toBytes
  rw [← entry.readAt_toBytes]
  apply readAt_congr
  intro index bound
  rw [entry.readAt_toBytes, byteAt_splice (by rw [long]; exact inside), if_pos (by omega)]
  congr 1
  omega

theorem readAt_splice_apart {buf part : List UInt8} {offset other : Nat}
    (inside : offset + part.length ≤ buf.length)
    (apart : other + entrySize ≤ offset ∨ offset + part.length ≤ other) :
    readAt (splice buf offset part) other = readAt buf other := by
  apply readAt_congr
  intro index bound
  rw [byteAt_splice inside, if_neg (by omega)]

end Fat32DirEntry

end ArcadiaOs.Fs
