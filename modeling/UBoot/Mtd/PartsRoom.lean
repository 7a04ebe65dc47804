import Mathlib.Data.List.Infix
import UBoot.Mtd.Parts

/-!
# Room for the description (common/cmd_mtdparts.c)

`generate_mtdparts` charges every piece of the description to `maxlen` before it writes it, except
for "mtdparts=". What it writes is thus up to nine bytes more than it counts.
-/

namespace Mtdparts

def offsetText (prev : Option Part) (part : Part) : Text :=
  if Gap prev part then 64 :: memsizeFormat part.offset else []

def nameText (part : Part) : Text :=
  if part.autoName = false then 40 :: (part.name ++ [41]) else []

def flagsText (part : Part) : Text := if part.maskFlags ≠ 0 then [114, 111] else []

def partText (prev : Option Part) (part : Part) : Text :=
  memsizeFormat part.size ++ (offsetText prev part ++ (nameText part ++ flagsText part))

def partsText : Option Part → List Part → Text
  | _, [] => []
  | prev, part :: parts =>
    partText prev part ++ ((if parts ≠ [] then [44] else []) ++ partsText (some part) parts)

def deviceText (dev : Device) : Text := dev.id.mtdId ++ 58 :: partsText none dev.parts

def devicesText : List Device → Text
  | [] => []
  | dev :: devices =>
    deviceText dev ++ ((if devices ≠ [] then [59] else []) ++ devicesText devices)

def piecesIf (p : Prop) [Decidable p] (piece : Text) : List Text := if p then [piece] else []

def partPieces (prev : Option Part) (part : Part) : List Text :=
  memsizeFormat part.size :: (piecesIf (Gap prev part) (64 :: memsizeFormat part.offset) ++
    (piecesIf (part.autoName = false) (40 :: (part.name ++ [41])) ++
      piecesIf (part.maskFlags ≠ 0) [114, 111]))

def partsPieces : Option Part → List Part → List Text
  | _, [] => []
  | prev, part :: parts =>
    partPieces prev part ++ (piecesIf (parts ≠ []) [44] ++ partsPieces (some part) parts)

def devicesPieces : List Device → List Text
  | [] => []
  | dev :: devices =>
    (dev.id.mtdId ++ [58]) ::
      (partsPieces none dev.parts ++ (piecesIf (devices ≠ []) [59] ++ devicesPieces devices))

def fill : Nat → List Text → Text
  | _, [] => []
  | room, piece :: rest =>
    if room < piece.length then [] else piece ++ fill (room - piece.length) rest

/-- The text in `buf` where `generate_mtdparts` returns, without the NUL. -/
def textLeft (devices : List Device) (buflen : Nat) : Text :=
  if devices = [] then [] else variablePrefix ++ fill (buflen - 1) (devicesPieces devices)

/-- How many bytes of `buf` are written. `sprintf` puts a NUL behind "mtdparts=", and one goes
behind the text when it is complete. -/
def extent (devices : List Device) (buflen : Nat) : Nat :=
  if devices = [] then 1
  else if (generateMtdparts devices buflen).isSome then (textLeft devices buflen).length + 1
  else max 10 (textLeft devices buflen).length

def description (devices : List Device) : Text :=
  if devices = [] then [] else variablePrefix ++ devicesText devices

/-- `buf` is not left, and the description is generated if and only if it fits with its NUL. -/
structure Contained (devices : List Device) (buflen : Nat) : Prop where
  inside : extent devices buflen ≤ buflen
  complete : (generateMtdparts devices buflen).isSome ↔ (description devices).length + 1 ≤ buflen

/-- No run of pieces from the first on ends in the nine bytes that were not charged. -/
structure Roomy (devices : List Device) (buflen : Nat) : Prop where
  whole : (devicesText devices).length + 9 ≠ buflen
  pieces : ∀ k, ((devicesPieces devices).take k).flatten.length + 9 ≤ buflen ∨
    buflen ≤ ((devicesPieces devices).take k).flatten.length

lemma piecesIf_flatten (p : Prop) [Decidable p] (piece : Text) :
    (piecesIf p piece).flatten = if p then piece else [] := by
  rw [piecesIf]
  split_ifs
  · simp
  · rfl

lemma partPieces_flatten (prev : Option Part) (part : Part) :
    (partPieces prev part).flatten = partText prev part := by
  simp [partPieces, piecesIf_flatten, partText, offsetText, nameText, flagsText]

lemma partsPieces_flatten (prev : Option Part) (parts : List Part) :
    (partsPieces prev parts).flatten = partsText prev parts := by
  induction parts generalizing prev with
  | nil => rfl
  | cons part parts ih =>
    simp [partsPieces, partsText, piecesIf_flatten, partPieces_flatten, ih]

lemma devicesPieces_flatten (devices : List Device) :
    (devicesPieces devices).flatten = devicesText devices := by
  induction devices with
  | nil => rfl
  | cons dev devices ih =>
    simp [devicesPieces, devicesText, deviceText, piecesIf_flatten, partsPieces_flatten, ih]

def emitAll : List Text → Out → Option Out
  | [], out => some out
  | piece :: rest, out => (emit piece out).bind (emitAll rest)

lemma emitAll_append (first rest : List Text) :
    emitAll (first ++ rest) = fun out => (emitAll first out).bind (emitAll rest) := by
  funext out
  induction first generalizing out with
  | nil => rfl
  | cons piece first ih =>
    rw [List.cons_append, emitAll, emitAll, Option.bind_assoc]
    exact congrArg (Option.bind _) (funext ih)

lemma emitIf_pieces (p : Prop) [Decidable p] (piece : Text) (out : Out) :
    emitIf p piece out = emitAll (piecesIf p piece) out := by
  rw [emitIf, piecesIf]
  split_ifs
  · exact (Option.bind_fun_some _).symm
  · rfl

lemma generatePart_pieces (prev : Option Part) (part : Part) (out : Out) :
    generatePart prev part out = emitAll (partPieces prev part) out := by
  simp only [generatePart, partPieces, emitAll, emitAll_append, emitIf_pieces]
  rfl

lemma generateParts_pieces (prev : Option Part) (parts : List Part) (out : Out) :
    generateParts prev parts out = emitAll (partsPieces prev parts) out := by
  induction parts generalizing prev out with
  | nil => rfl
  | cons part parts ih =>
    simp only [generateParts, partsPieces, emitAll_append, emitIf_pieces, generatePart_pieces, ih]
    rfl

lemma generateDevices_pieces (devices : List Device) (out : Out) :
    generateDevices devices out = emitAll (devicesPieces devices) out := by
  induction devices generalizing out with
  | nil => rfl
  | cons dev devices ih =>
    simp only [generateDevices, devicesPieces, emitAll, emitAll_append, emitIf_pieces,
      generateParts_pieces, ih]
    rfl

lemma emitAll_isSome (pieces : List Text) (room : Nat) (text : Text) :
    (emitAll pieces (room, text)).isSome ↔ pieces.flatten.length ≤ room := by
  induction pieces generalizing room text with
  | nil => simp [emitAll]
  | cons piece rest ih =>
    rw [emitAll, emit, List.flatten_cons, List.length_append]
    by_cases long : room < piece.length
    · rw [if_pos long]
      simp only [Option.bind_none, Option.isSome_none, Bool.false_eq_true, false_iff]
      omega
    · rw [if_neg long, Option.bind_some, ih]
      omega

lemma fill_all {pieces : List Text} {room : Nat} (fits : pieces.flatten.length ≤ room) :
    fill room pieces = pieces.flatten := by
  induction pieces generalizing room with
  | nil => rfl
  | cons piece rest ih =>
    rw [List.flatten_cons, List.length_append] at fits
    rw [fill, if_neg (by omega), ih (by omega), List.flatten_cons]

lemma fill_take (pieces : List Text) (room : Nat) :
    ∃ k, fill room pieces = (pieces.take k).flatten := by
  induction pieces generalizing room with
  | nil => exact ⟨0, rfl⟩
  | cons piece rest ih =>
    rw [fill]
    split_ifs
    · exact ⟨0, rfl⟩
    · obtain ⟨k, first⟩ := ih (room - piece.length)
      exact ⟨k + 1, by rw [first, List.take_succ_cons, List.flatten_cons]⟩

lemma fill_le (pieces : List Text) (room : Nat) : (fill room pieces).length ≤ room := by
  induction pieces generalizing room with
  | nil => exact Nat.zero_le room
  | cons piece rest ih =>
    rw [fill]
    split_ifs
    · exact Nat.zero_le room
    · have behind := ih (room - piece.length)
      rw [List.length_append]
      omega

lemma fill_most (pieces : List Text) (room k : Nat) :
    (pieces.take k).flatten.length ≤ (fill room pieces).length ∨
      room < (pieces.take k).flatten.length := by
  induction pieces generalizing room k with
  | nil => simp
  | cons piece rest ih =>
    cases k with
    | zero => simp
    | succ k =>
      rw [List.take_succ_cons, List.flatten_cons, List.length_append, fill]
      split_ifs
      · omega
      · have behind := ih (room - piece.length) k
        rw [List.length_append]
        omega

variable {devices : List Device}

lemma generateMtdparts_isSome (nonempty : devices ≠ []) (buflen : Nat) :
    (generateMtdparts devices buflen).isSome ↔ (devicesText devices).length ≤ buflen - 1 := by
  rw [generateMtdparts, if_neg nonempty, Option.isSome_map, generateDevices_pieces, emitAll_isSome,
    devicesPieces_flatten]

lemma description_length (nonempty : devices ≠ []) :
    (description devices).length = 9 + (devicesText devices).length := by
  rw [description, if_neg nonempty, List.length_append]
  rfl

lemma textLeft_length (nonempty : devices ≠ []) (buflen : Nat) :
    (textLeft devices buflen).length =
      9 + (fill (buflen - 1) (devicesPieces devices)).length := by
  rw [textLeft, if_neg nonempty, List.length_append]
  rfl

lemma contained_empty {buflen : Nat} (room : 10 ≤ buflen) : Contained [] buflen where
  inside := by
    rw [extent, if_pos rfl]
    omega
  complete := by
    simp only [generateMtdparts, description, if_true, Option.isSome_some, List.length_nil,
      true_iff]
    omega

lemma roomy_empty {buflen : Nat} (room : 10 ≤ buflen) : Roomy [] buflen where
  whole := by
    change 0 + 9 ≠ buflen
    omega
  pieces k := by
    rw [devicesPieces, List.take_nil]
    left
    change 0 + 9 ≤ buflen
    omega

section
variable {devices : List Device} {buflen : Nat}

lemma extent_of_complete (nonempty : devices ≠ [])
    (fits : (devicesText devices).length ≤ buflen - 1) :
    extent devices buflen = (devicesText devices).length + 10 := by
  have generated := (generateMtdparts_isSome nonempty buflen).mpr fits
  rw [extent, if_neg nonempty, if_pos generated, textLeft_length nonempty,
    fill_all (devicesPieces_flatten devices ▸ fits), devicesPieces_flatten]
  omega

lemma contained_of_complete (nonempty : devices ≠ [])
    (fits : (devicesText devices).length ≤ buflen - 1) :
    Contained devices buflen ↔ (devicesText devices).length + 10 ≤ buflen := by
  have generated := (generateMtdparts_isSome nonempty buflen).mpr fits
  have complete := description_length nonempty
  have written := extent_of_complete nonempty fits
  constructor
  · intro contained
    rw [← written]
    exact contained.inside
  · intro room
    exact ⟨by omega, iff_of_true generated (by omega)⟩

lemma contained_of_cut (room : 10 ≤ buflen) (nonempty : devices ≠ [])
    (cut : buflen - 1 < (devicesText devices).length) :
    Contained devices buflen ↔ (fill (buflen - 1) (devicesPieces devices)).length + 9 ≤ buflen := by
  have refused : ¬ (generateMtdparts devices buflen).isSome := by
    rw [generateMtdparts_isSome nonempty]
    omega
  have complete := description_length nonempty
  have written : extent devices buflen =
      max 10 (9 + (fill (buflen - 1) (devicesPieces devices)).length) := by
    rw [extent, if_neg nonempty, if_neg refused, textLeft_length nonempty]
  constructor
  · intro contained
    have inside := contained.inside
    omega
  · intro inside
    exact ⟨by omega, iff_of_false refused (by omega)⟩

lemma roomy_of_complete (room : 10 ≤ buflen)
    (fits : (devicesText devices).length ≤ buflen - 1) :
    Roomy devices buflen ↔ (devicesText devices).length + 10 ≤ buflen := by
  constructor
  · intro roomy
    have whole := roomy.whole
    have all := roomy.pieces (devicesPieces devices).length
    rw [List.take_length, devicesPieces_flatten] at all
    omega
  · intro inside
    refine ⟨by omega, fun k => .inl ?_⟩
    have most := fill_most (devicesPieces devices) (buflen - 1) k
    rw [fill_all (devicesPieces_flatten devices ▸ fits), devicesPieces_flatten] at most
    have whole : ((devicesPieces devices).take k).flatten.length ≤
        (devicesText devices).length := by
      rw [← devicesPieces_flatten]
      exact (List.IsPrefix.flatten (List.take_prefix k _)).length_le
    omega

lemma roomy_of_cut (room : 10 ≤ buflen) (cut : buflen - 1 < (devicesText devices).length) :
    Roomy devices buflen ↔ (fill (buflen - 1) (devicesPieces devices)).length + 9 ≤ buflen := by
  constructor
  · intro roomy
    obtain ⟨k, first⟩ := fill_take (devicesPieces devices) (buflen - 1)
    have short := fill_le (devicesPieces devices) (buflen - 1)
    have pieces := roomy.pieces k
    rw [← first] at pieces
    omega
  · intro inside
    refine ⟨by omega, fun k => ?_⟩
    have most := fill_most (devicesPieces devices) (buflen - 1) k
    omega

end

/-- A buffer of ten bytes or more is not left, and is filled exactly if the description fits, if
and only if no run of pieces ends in the nine bytes that "mtdparts=" takes. -/
theorem contained_iff (devices : List Device) {buflen : Nat} (room : 10 ≤ buflen) :
    Contained devices buflen ↔ Roomy devices buflen := by
  by_cases empty : devices = []
  · subst empty
    exact iff_of_true (contained_empty room) (roomy_empty room)
  · by_cases fits : (devicesText devices).length ≤ buflen - 1
    · rw [contained_of_complete empty fits, roomy_of_complete room fits]
    · have cut := Nat.lt_of_not_le fits
      rw [contained_of_cut room empty cut, roomy_of_cut room cut]

/-- A device "a" with one partition that takes all of it. -/
def single : Device := ⟨⟨.nor, 0, 0x10000, [97]⟩, [⟨[], true, 0x10000, 0, 0⟩]⟩

theorem single_contained : Contained [single] 32 ↔ Roomy [single] 32 :=
  contained_iff [single] (by decide)

lemma single_text : devicesText [single] = [97, 58, 54, 52, 107] := by
  simp [devicesText, deviceText, partsText, partText, offsetText, nameText, flagsText, Gap, single,
    memsizeFormat, sizeGB, sizeMB, sizeKB, NumberText.decimal]

/-- "mtdparts=a:64k" has 14 bytes: into a buffer of ten 15 bytes are written, with the NUL. -/
theorem single_not_contained :
    (generateMtdparts [single] 10).isSome ∧ (description [single]).length + 1 = 15 ∧
      extent [single] 10 = 15 ∧ ¬ Contained [single] 10 := by
  have nonempty : [single] ≠ [] := List.cons_ne_nil single []
  have fits : (devicesText [single]).length ≤ 10 - 1 := by
    rw [single_text]
    decide
  have length := description_length nonempty
  have written := extent_of_complete nonempty fits
  rw [single_text] at length written
  refine ⟨(generateMtdparts_isSome nonempty 10).mpr fits, by rw [length]; rfl, written, ?_⟩
  rw [contained_of_complete nonempty fits, single_text]
  decide

end Mtdparts
