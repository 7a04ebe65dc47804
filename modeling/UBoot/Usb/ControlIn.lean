import UBoot.Usb.Enum

/-!
# The descriptors of the virtual serial port (drivers/usb/slave/usb2uart.c)
-/

namespace Usb

/-- A string descriptor: its length, USB_DTYPE_STRING and the characters in two bytes each. -/
def stringDescriptor (chars : List UInt8) : List UInt8 :=
  UInt8.ofNat (2 + 2 * chars.length) :: 3 :: chars.flatMap (fun c => [c, 0])

def cdcDevice : List UInt8 :=
  [18, 1, 0x10, 0x01, 2, 0, 0, 8, 0x88, 0x88, 0x03, 0x00, 0x00, 0x01, 1, 2, 3, 1]

def cdcConfiguration : List UInt8 := [9, 2, 0x43, 0x00, 2, 1, 5, 0xc0, 0x25]

def cdcCommInterface : List UInt8 :=
  [9, 4, 0, 0, 1, 2, 2, 1, 4,
   5, 0x24, 0, 0x10, 0x01,
   4, 0x24, 2, 6,
   5, 0x24, 6, 0, 1,
   5, 0x24, 1, 1, 1,
   7, 5, 0x81, 3, 32, 0, 0x0a]

def cdcDataInterface : List UInt8 :=
  [9, 4, 1, 0, 2, 0x0a, 0, 0, 0,
   7, 5, 0x82, 2, 32, 0, 0,
   7, 5, 0x03, 2, 32, 0, 0]

/-- `g_pCDCSerStringDescriptors`: language, "HYQ", "Virtual COM Port", "0003",
"ACM Control Interface" and "Self Powered Configuration". -/
def cdcStrings : List (List UInt8) :=
  [[4, 3, 0x09, 0x04],
   stringDescriptor [72, 89, 81],
   stringDescriptor [86, 105, 114, 116, 117, 97, 108, 32, 67, 79, 77, 32, 80, 111, 114, 116],
   stringDescriptor [48, 48, 48, 51],
   stringDescriptor [65, 67, 77, 32, 67, 111, 110, 116, 114, 111, 108, 32,
     73, 110, 116, 101, 114, 102, 97, 99, 101],
   stringDescriptor [83, 101, 108, 102, 32, 80, 111, 119, 101, 114, 101, 100, 32,
     67, 111, 110, 102, 105, 103, 117, 114, 97, 116, 105, 111, 110]]

lemma cdcConfiguration_long : 9 ≤ cdcConfiguration.length := by decide

lemma cdcDevice_length : cdcDevice[0]?.map UInt8.toNat = some cdcDevice.length := by decide

def cdcConfig : Config where
  sections := [cdcConfiguration, cdcCommInterface, cdcDataInterface]
  count := by decide
  sizes := by decide
  first := ⟨_, _, rfl, cdcConfiguration_long⟩

def cdcSerial : Device where
  device := cdcDevice
  configs := [cdcConfig]
  strings := cdcStrings
  length_byte := cdcDevice_length
  num_configurations := by decide
  string_lengths := by decide

/-!
## Control IN transfers

What GET_DESCRIPTOR and the transmit interrupts after it send: full packets of the
descriptor, and a packet that is not full to end it.
-/

open Runs

/-! ## Packet streams -/

/-- The packets for some bytes: full ones, then one that is shorter and marked. -/
inductive Stream : List UInt8 → List Packet → Prop
  | short {data : List UInt8} : data.length < 8 → Stream data [⟨data, true⟩]
  | full {data : List UInt8} {ps : List Packet} :
      8 ≤ data.length → Stream (data.drop 8) ps → Stream data (⟨data.take 8, false⟩ :: ps)

structure Transfer (data : List UInt8) (ps : List Packet) : Prop where
  sizes : ∀ p ∈ ps, p.bytes.length ≤ ep0MaxPacketSize
  whole : ps.flatMap Packet.bytes = data
  ends : ∃ front final, ps = front ++ [final] ∧
    (∀ p ∈ front, p.bytes.length = ep0MaxPacketSize ∧ p.last = false) ∧
    final.bytes.length < ep0MaxPacketSize ∧ final.last = true

lemma Stream.transfer {data : List UInt8} {ps : List Packet} (h : Stream data ps) :
    Transfer data ps := by
  induction h with
  | @short data few =>
    constructor
    · intro p hp
      obtain rfl := List.mem_singleton.mp hp
      exact Nat.le_of_lt few
    · simp
    · exact ⟨[], ⟨data, true⟩, rfl, fun p hp => absurd hp (List.not_mem_nil), few, rfl⟩
  | @full data ps enough _ ih =>
    have size : (data.take 8).length = ep0MaxPacketSize := by
      rw [List.length_take]
      exact Nat.min_eq_left enough
    constructor
    · intro p hp
      rcases List.mem_cons.mp hp with rfl | hp
      · exact Nat.le_of_eq size
      · exact ih.sizes p hp
    · rw [List.flatMap_cons, ih.whole]
      exact List.take_append_drop 8 data
    · obtain ⟨front, final, rfl, hfront, hfinal⟩ := ih.ends
      refine ⟨⟨data.take 8, false⟩ :: front, final, rfl, ?_, hfinal⟩
      intro p hp
      rcases List.mem_cons.mp hp with rfl | hp
      · exact ⟨size, rfl⟩
      · exact hfront p hp

/-! ## Descriptors -/

variable {bytes : List UInt8} {dev : Device}

/-- The bytes of a configuration descriptor, with the `wTotalLength` the device fills in. -/
def Config.descriptor (cfg : Config) : List UInt8 := patch cfg.size cfg.sections.flatten

def Device.descriptor (dev : Device) (value : Nat) : Option (List UInt8) :=
  match value / 256 with
  | 1 => some dev.device
  | 2 => dev.configs[value % 256]?.map Config.descriptor
  | 3 => dev.strings[value % 256]?
  | _ => none

/-- The first `n` bytes reach into no section past the offsets that a byte holds. -/
def Config.OffsetsFit (cfg : Config) (n : Nat) : Prop :=
  ∀ (i : Nat) (sec : List UInt8), cfg.sections[i]? = some sec →
    sec.length < 256 ∨ n ≤ (cfg.sections.take i).flatten.length + 256

def Room : List (List UInt8) → (offset n : Nat) → Prop
  | [], _, _ => True
  | sec :: rest, offset, n =>
    (sec.length < 256 ∨ offset + n ≤ 256) ∧ Room rest 0 (n - (sec.length - offset))

lemma room_of_fit {secs : List (List UInt8)} {n : Nat}
    (fit : ∀ (i : Nat) (sec : List UInt8), secs[i]? = some sec →
      sec.length < 256 ∨ n ≤ (secs.take i).flatten.length + 256) : Room secs 0 n := by
  induction secs generalizing n with
  | nil => trivial
  | cons sec rest ih =>
    constructor
    · have head := fit 0 sec rfl
      simpa using head
    · apply ih
      intro i next hnext
      have after := fit (i + 1) next hnext
      simp only [List.take_succ_cons, List.flatten_cons, List.length_append] at after
      omega

@[simp] lemma length_patch (total : Nat) (bytes : List UInt8) :
    (patch total bytes).length = bytes.length := by
  simp [patch]

lemma patch_take (total n : Nat) (bytes : List UInt8) :
    patch total (bytes.take n) = (patch total bytes).take n := by
  simp only [patch, List.take_set]

lemma patch_drop (total : Nat) (bytes : List UInt8) :
    (patch total bytes).drop 8 = bytes.drop 8 := by
  rw [patch, List.drop_set_of_lt (by omega), List.drop_set_of_lt (by omega)]

lemma foldl_length (secs : List (List UInt8)) (n : Nat) :
    secs.foldl (fun len sec => len + sec.length) n = n + secs.flatten.length := by
  induction secs generalizing n with
  | nil => rfl
  | cons sec rest ih =>
    rw [List.foldl_cons, ih, List.flatten_cons, List.length_append]
    omega

lemma Config.size_eq (cfg : Config) : cfg.size = cfg.sections.flatten.length :=
  (foldl_length cfg.sections 0).trans (Nat.zero_add _)

lemma Config.length_descriptor (cfg : Config) : cfg.descriptor.length = cfg.size := by
  rw [Config.descriptor, length_patch, Config.size_eq]

lemma lengthByte_eq (h : bytes[0]?.map UInt8.toNat = some bytes.length) :
    lengthByte bytes = bytes.length := by
  rw [lengthByte]
  cases hb : bytes[0]? with
  | none => simp [hb] at h
  | some b => simpa [hb] using h

lemma numConfigurations_eq (dev : Device) :
    (dev.device[17]?.getD 0).toNat = dev.configs.length := by
  have byte := dev.num_configurations
  cases h : dev.device[17]? with
  | none => simp [h] at byte
  | some b => simpa [h] using byte

lemma dataPut_eq {coding : Option (List UInt8)} {p : Pointer} {n : Nat}
    (object : dev.contents coding p.place = some bytes) (inside : p.offset + n ≤ bytes.length) :
    dataPut dev coding (some p) n = .ok ((bytes.drop p.offset).take n) := by
  rw [dataPut]
  split
  · rename_i zero
    rw [zero, List.take_zero]
  · simp only [object, if_pos inside]

lemma dataPut_zero (dev : Device) (coding : Option (List UInt8)) (source : Option Pointer) :
    dataPut dev coding source 0 = .ok [] := rfl

lemma take_numBytes (rest : List UInt8) :
    rest.take (min rest.length ep0MaxPacketSize) = rest.take 8 := by
  rw [List.take_eq_take_iff, ep0MaxPacketSize]
  omega

/-! ## The position in a configuration -/

variable {cfg : Config} {rest : List UInt8} {fuel : Nat}

/-- `rest` is what follows an offset in a section, from where no offset wraps. -/
structure At (cfg : Config) (i offset : Nat) (rest : List UInt8) : Prop where
  started : ¬ (offset = 0 ∧ i = 0)
  bytes : rest <+: (cfg.sections.drop i).flatten.drop offset
  inside : ∀ sec, cfg.sections[i]? = some sec → offset ≤ sec.length
  room : Room (cfg.sections.drop i) offset rest.length

lemma At.current {i offset : Nat} (h : At cfg i offset rest) (more : rest ≠ []) :
    ∃ sec, cfg.sections[i]? = some sec ∧
      cfg.sections.drop i = sec :: cfg.sections.drop (i + 1) := by
  have bound : i < cfg.sections.length := by
    apply Classical.byContradiction
    intro past
    have none_left : cfg.sections.drop i = [] := List.drop_eq_nil_of_le (by omega)
    have empty := h.bytes
    rw [none_left, List.flatten_nil, List.drop_nil] at empty
    exact more (List.prefix_nil.mp empty)
  exact ⟨cfg.sections[i], List.getElem?_eq_getElem bound, List.drop_eq_getElem_cons bound⟩

lemma prefix_drop {whole : List UInt8} (h : rest <+: whole) (k : Nat) :
    rest.drop k <+: whole.drop k := by
  obtain ⟨after, rfl⟩ := h
  rcases Nat.le_total k rest.length with le | le
  · rw [List.drop_append_of_le_length le]
    exact List.prefix_append _ _
  · rw [List.drop_eq_nil_of_le le]
    exact List.nil_prefix

lemma prefix_take {whole : List UInt8} (h : rest <+: whole) {k : Nat} (le : k ≤ rest.length) :
    rest.take k = whole.take k := by
  obtain ⟨after, rfl⟩ := h
  rw [List.take_append_of_le_length le]

lemma putSection_at {f : Filling} (pos : At cfg f.configSection f.sectionOffset rest)
    (some_left : f.toSend ≠ 0) (enough : f.toSend ≤ rest.length) :
    ∃ g k, putSection cfg f = .ok g ∧ g.put = f.put ++ rest.take k ∧ k ≤ f.toSend ∧
      g.toSend = f.toSend - k ∧
      g.toSend + (cfg.sections.length - g.configSection) <
        f.toSend + (cfg.sections.length - f.configSection) ∧
      (k = rest.length ∨ At cfg g.configSection g.sectionOffset (rest.drop k)) := by
  have more : rest ≠ [] := by
    rintro rfl
    exact some_left (Nat.le_zero.mp enough)
  obtain ⟨sec, hsec, tail⟩ := pos.current more
  obtain ⟨bound, -⟩ := List.getElem?_eq_some_iff.mp hsec
  have inside := pos.inside sec hsec
  have room := pos.room
  have bytes := pos.bytes
  rw [tail] at room bytes
  obtain ⟨here, beyond⟩ := room
  rw [List.flatten_cons, List.drop_append_of_le_length inside] at bytes
  have count := cfg.count
  generalize hk : min (sec.length - f.sectionOffset) f.toSend = k
  have put : (sec.drop f.sectionOffset).take k = rest.take k := by
    rw [prefix_take bytes (by omega), List.take_append_of_le_length]
    rw [List.length_drop]
    omega
  have left : (rest.drop k).length = rest.length - k := List.length_drop
  simp only [putSection, hsec, if_neg (Nat.not_lt.mpr inside), hk, put]
  by_cases ended : (f.sectionOffset + k) % 256 = sec.length
  · -- the section ends here
    rw [if_pos ended]
    refine ⟨_, k, rfl, rfl, by omega, rfl, by dsimp only; omega, .inr ⟨?_, ?_, ?_, ?_⟩⟩
    · dsimp only
      omega
    · have next := prefix_drop bytes k
      have gone : (sec.drop f.sectionOffset).length = k := by
        rw [List.length_drop]
        omega
      rw [List.drop_left' gone] at next
      rwa [Nat.mod_eq_of_lt (by omega), List.drop_zero]
    · intro _ _
      exact Nat.zero_le _
    · dsimp only
      rw [Nat.mod_eq_of_lt (by omega), left]
      have same : rest.length - k = rest.length - (sec.length - f.sectionOffset) := by omega
      rw [same]
      exact beyond
  · rw [if_neg ended]
    refine ⟨_, k, rfl, rfl, by omega, rfl, by dsimp only; omega, ?_⟩
    by_cases wraps : f.sectionOffset + k < 256
    · apply Or.inr
      dsimp only
      rw [Nat.mod_eq_of_lt wraps] at ended ⊢
      have within : f.sectionOffset + k < sec.length := by omega
      refine ⟨?_, ?_, ?_, ?_⟩
      · have started := pos.started
        omega
      · have next := prefix_drop bytes k
        have short : k ≤ (sec.drop f.sectionOffset).length := by
          rw [List.length_drop]
          omega
        rw [List.drop_append_of_le_length short, List.drop_drop] at next
        rw [tail, List.flatten_cons, List.drop_append_of_le_length (Nat.le_of_lt within)]
        exact next
      · intro other hother
        obtain rfl := Option.some.inj (hsec.symm.trans hother)
        omega
      · rw [tail, left]
        refine ⟨by omega, ?_⟩
        have same : rest.length - k - (sec.length - (f.sectionOffset + k)) =
            rest.length - (sec.length - f.sectionOffset) := by omega
        rw [same]
        exact beyond
    · -- only the last byte may lie there
      apply Or.inl
      omega

lemma putSections_at {f : Filling}
    (pos : f.toSend = 0 ∨ At cfg f.configSection f.sectionOffset rest)
    (enough : f.toSend ≤ rest.length)
    (fuel_enough : f.toSend + (cfg.sections.length - f.configSection) < fuel) :
    ∃ g, putSections cfg fuel f = .ok g ∧ g.put = f.put ++ rest.take f.toSend ∧
      (f.toSend = 0 ∧ g = f ∨ f.toSend = rest.length ∨
        At cfg g.configSection g.sectionOffset (rest.drop f.toSend)) := by
  induction fuel generalizing f rest with
  | zero => omega
  | succ fuel ih =>
    rw [putSections]
    by_cases zero : f.toSend = 0
    · rw [if_pos zero]
      refine ⟨f, rfl, ?_, .inl ⟨zero, rfl⟩⟩
      rw [zero, List.take_zero, List.append_nil]
    rw [if_neg zero]
    obtain ⟨g, k, hg, hput, hk, hleft, less, next⟩ :=
      putSection_at (pos.resolve_left zero) zero enough
    have left : (rest.drop k).length = rest.length - k := List.length_drop
    rw [hg]
    have again : g.toSend = 0 ∨ At cfg g.configSection g.sectionOffset (rest.drop k) := by
      rcases next with all | at_
      · apply Or.inl
        omega
      · exact .inr at_
    obtain ⟨u, hu, uput, uat⟩ := ih again (by omega) (by omega)
    have total : f.toSend = k + g.toSend := by omega
    refine ⟨u, hu, ?_, .inr ?_⟩
    · rw [uput, hput, List.append_assoc, total, List.take_add]
    · rw [total, ← List.drop_drop]
      rcases uat with ⟨done, rfl⟩ | all | at_
      · rcases next with all | at_
        · apply Or.inl
          omega
        · apply Or.inr
          rw [done, List.drop_zero]
          exact at_
      · apply Or.inl
        omega
      · exact .inr at_

/-! ## One packet -/

variable {s : State}

/-- `rest` is what `USBDEP0StateTx` has still to send. -/
def TxReady (dev : Device) (coding : Option (List UInt8)) (s : State) (rest : List UInt8) : Prop :=
  ∃ p bytes, s.ep0Data = some p ∧ dev.contents coding p.place = some bytes ∧
    p.offset + rest.length ≤ bytes.length ∧ rest = (bytes.drop p.offset).take rest.length ∧
    s.ep0DataRemain = rest.length

/-- `rest` is what `USBDEP0StateTxConfig` has still to send after its first packet. -/
def ConfigReady (dev : Device) (s : State) (rest : List UInt8) : Prop :=
  ∃ cfg, dev.configs[s.configIndex]? = some cfg ∧ s.ep0DataRemain = rest.length ∧
    (rest = [] ∨ At cfg s.configSection s.sectionOffset rest)

inductive Pending (dev : Device) (s : State) (rest : List UInt8) : Prop
  | tx : s.ep0State = .tx → TxReady dev none s rest → Pending dev s rest
  | txConfig : s.ep0State = .txConfig → ConfigReady dev s rest → Pending dev s rest

/-- A call that has sent the next packet of `rest`. -/
structure Sends (dev : Device) (s t : State) (rest : List UInt8) : Prop where
  sent : t.sent = s.sent ++ [⟨rest.take 8, decide (rest.length < 8)⟩]
  ended : rest.length < 8 → t.ep0State = .idle
  more : 8 ≤ rest.length → Pending dev t (rest.drop 8)

lemma finish_sends {t : State} (same : t.sent = s.sent) (put : bytes = rest.take 8)
    (more : 8 ≤ rest.length → Pending dev t (rest.drop 8)) :
    Sends dev s (finish t (min rest.length ep0MaxPacketSize) bytes) rest := by
  subst put
  by_cases few : rest.length < 8
  · have size : min rest.length ep0MaxPacketSize ≠ ep0MaxPacketSize := by
      rw [ep0MaxPacketSize]
      omega
    rw [finish, if_neg size]
    refine ⟨?_, fun _ => rfl, fun enough => absurd few (Nat.not_lt.mpr enough)⟩
    simp [dataSend, same, few]
  · have enough := Nat.not_lt.mp few
    have size : min rest.length ep0MaxPacketSize = ep0MaxPacketSize := Nat.min_eq_right enough
    rw [finish, if_pos size]
    refine ⟨?_, fun h => absurd h few, fun _ => ?_⟩
    · simp [dataSend, same, few]
    · rcases more enough with ⟨state, ready⟩ | ⟨state, ready⟩
      · exact .tx state ready
      · exact .txConfig state ready

lemma drop_take_length {offset k : Nat} (h : rest = (bytes.drop offset).take rest.length) :
    rest.drop k = (bytes.drop (offset + k)).take (rest.drop k).length := by
  rw [List.length_drop, ← List.drop_drop]
  calc rest.drop k = ((bytes.drop offset).take rest.length).drop k := by rw [← h]
    _ = ((bytes.drop offset).drop k).take (rest.length - k) := List.drop_take

lemma stateTx_sends {coding : Option (List UInt8)} (ready : TxReady dev coding s rest)
    (one_call : coding = none ∨ rest.length < 8) :
    ∃ t, stateTx dev coding s = .ok t ∧ Sends dev s t rest := by
  obtain ⟨p, bytes, hp, object, inside, same, remain⟩ := ready
  have count : p.offset + min rest.length ep0MaxPacketSize ≤ bytes.length := by omega
  have put : (bytes.drop p.offset).take (min rest.length ep0MaxPacketSize) = rest.take 8 := by
    rw [← take_numBytes]
    calc (bytes.drop p.offset).take (min rest.length ep0MaxPacketSize)
        = ((bytes.drop p.offset).take rest.length).take (min rest.length ep0MaxPacketSize) := by
          rw [List.take_take]
          congr 1
          omega
      _ = rest.take (min rest.length ep0MaxPacketSize) := by rw [← same]
  refine ⟨finish (txState s (min rest.length ep0MaxPacketSize)) _ _, ?_,
    finish_sends rfl put ?_⟩
  · rw [stateTx, remain, hp, dataPut_eq object count]
    rfl
  · intro enough
    obtain rfl := one_call.resolve_right (Nat.not_lt.mpr enough)
    refine .tx rfl ⟨p.advance 8, bytes, ?_, object, ?_, drop_take_length same, ?_⟩
    · simp only [txState, hp, Option.map_some, ep0MaxPacketSize, Nat.min_eq_right enough]
    · simp only [Pointer.advance, List.length_drop]
      omega
    · simp only [txState, remain, List.length_drop, ep0MaxPacketSize, Nat.min_eq_right enough]

lemma stateTxConfig_sends {f : Filling} (hcfg : dev.configs[s.configIndex]? = some cfg)
    (remain : s.ep0DataRemain = rest.length)
    (filled : fillPacket dev fuel cfg s (min rest.length ep0MaxPacketSize) = .ok f)
    (put : f.put = rest.take 8)
    (pos : rest.length ≤ 8 ∨ At cfg f.configSection f.sectionOffset (rest.drop 8)) :
    ∃ t, stateTxConfig dev fuel s = .ok t ∧ Sends dev s t rest := by
  refine ⟨finish (txConfigState cfg s f (min rest.length ep0MaxPacketSize)) _ _, ?_,
    finish_sends rfl put ?_⟩
  · simp only [stateTxConfig, hcfg, remain, filled]
    rfl
  · intro enough
    refine .txConfig rfl ⟨cfg, hcfg, ?_, ?_⟩
    · have left : (rest.drop 8).length = rest.length - 8 := List.length_drop
      have last : cfg.sections.length ≤ f.configSection → rest.length ≤ 8 := by
        intro past
        rcases pos with few | at_
        · exact few
        apply Classical.byContradiction
        intro many
        have some_left : rest.drop 8 ≠ [] := by
          intro none_left
          rw [none_left, List.length_nil] at left
          omega
        obtain ⟨sec, hsec, -⟩ := at_.current some_left
        obtain ⟨bound, -⟩ := List.getElem?_eq_some_iff.mp hsec
        omega
      simp only [txConfigState, remain, left, ep0MaxPacketSize, Nat.min_eq_right enough]
      split
      · have few := last ‹_›
        omega
      · rfl
    · rcases pos with few | at_
      · exact .inl (List.drop_eq_nil_of_le few)
      · exact .inr at_

lemma fillPacket_empty (dev : Device) (cfg : Config) (s : State) (fuel : Nat) :
    ∃ f, fillPacket dev (fuel + 1) cfg s 0 = .ok f ∧ f.put = [] := by
  simp only [fillPacket]
  split
  · simp only [putHeader, Nat.zero_min, dataPut_zero]
    by_cases whole : cfg.sections[0]?.map List.length = some 0
    · exact ⟨⟨patch cfg.size [], 0, 1, 0⟩, by simp [whole, bind, Except.bind, putSections], rfl⟩
    · exact ⟨⟨patch cfg.size [], 0, s.configSection, 0⟩,
        by simp [whole, bind, Except.bind, putSections], rfl⟩
  · exact ⟨_, rfl, rfl⟩

lemma txConfig_sends (enough : 264 ≤ fuel) (ready : ConfigReady dev s rest) :
    ∃ t, stateTxConfig dev fuel s = .ok t ∧ Sends dev s t rest := by
  obtain ⟨cfg, hcfg, remain, rfl | pos⟩ := ready
  · obtain ⟨f, filled, put⟩ := fillPacket_empty dev cfg s (fuel - 1)
    rw [Nat.sub_add_cancel (by omega)] at filled
    exact stateTxConfig_sends hcfg remain filled put (.inl (Nat.zero_le _))
  have count := cfg.count
  have packet : min rest.length ep0MaxPacketSize ≤ 8 := Nat.min_le_right _ _
  let start : Filling :=
    ⟨[], min rest.length ep0MaxPacketSize, s.configSection, s.sectionOffset⟩
  have fuel_enough : start.toSend + (cfg.sections.length - start.configSection) < fuel := by
    dsimp only [start]
    omega
  obtain ⟨f, filled, put, next⟩ :=
    putSections_at (f := start) (.inr pos) (Nat.min_le_left _ _) fuel_enough
  have same : fillPacket dev fuel cfg s (min rest.length ep0MaxPacketSize) = .ok f := by
    rw [fillPacket, if_neg pos.started]
    exact filled
  rw [List.nil_append, take_numBytes] at put
  refine stateTxConfig_sends hcfg remain same put ?_
  dsimp only [start, ep0MaxPacketSize] at next
  rcases Nat.lt_or_ge 8 rest.length with more | few
  · apply Or.inr
    rw [Nat.min_eq_right (Nat.le_of_lt more)] at next
    rcases next with ⟨none_asked, -⟩ | all | at_
    · omega
    · omega
    · exact at_
  · exact .inl few

lemma fillPacket_first {n : Nat} (enough : 1 ≤ fuel) (hcfg : dev.configs[s.configIndex]? = some cfg)
    (start : s.sectionOffset = 0 ∧ s.configSection = 0)
    (data : s.ep0Data = some ⟨.section s.configIndex 0, 0⟩) (packet : n ≤ 8) :
    ∃ sec tail, cfg.sections = sec :: tail ∧ 9 ≤ sec.length ∧ fillPacket dev fuel cfg s n =
      .ok ⟨patch cfg.size (sec.take n), 0, s.configSection, n⟩ := by
  obtain ⟨sec, tail, hsecs, nine⟩ := cfg.first
  have hsec : cfg.sections[0]? = some sec := by rw [hsecs]; rfl
  have object : dev.contents none (.section s.configIndex 0) = some sec := by
    simp only [Device.contents, hcfg, Option.bind_some, hsec]
  have header : dataPut dev none s.ep0Data n = .ok (sec.take n) := by
    rw [data, dataPut_eq object (by dsimp only; omega), List.drop_zero]
  have part : ¬ cfg.sections[0]?.map List.length = some n := by
    rw [hsec, Option.map_some, Option.some.injEq]
    omega
  obtain ⟨fuel, rfl⟩ : ∃ m, fuel = m + 1 := ⟨fuel - 1, by omega⟩
  have count : min n 9 = n := by omega
  refine ⟨sec, tail, hsecs, nine, ?_⟩
  simp only [fillPacket, if_pos start, putHeader, count, header, bind, Except.bind,
    if_neg part, Nat.sub_self, putSections, if_true]

lemma firstConfig_sends (enough : 264 ≤ fuel) (hcfg : dev.configs[s.configIndex]? = some cfg)
    (start : s.sectionOffset = 0 ∧ s.configSection = 0)
    (data : s.ep0Data = some ⟨.section s.configIndex 0, 0⟩) (remain : s.ep0DataRemain = rest.length)
    (wanted : rest = cfg.descriptor.take rest.length) (fit : cfg.OffsetsFit rest.length) :
    ∃ t, stateTxConfig dev fuel s = .ok t ∧ Sends dev s t rest := by
  generalize hn : min rest.length ep0MaxPacketSize = n
  have packet : n ≤ 8 := hn ▸ Nat.min_le_right _ _
  obtain ⟨sec, tail, hsecs, nine, filled⟩ :=
    fillPacket_first (by omega : 1 ≤ fuel) hcfg start data packet
  have bytes : patch cfg.size (sec.take n) = rest.take 8 := by
    have flat : cfg.sections.flatten.take n = sec.take n := by
      rw [hsecs, List.flatten_cons, List.take_append_of_le_length (by omega)]
    calc patch cfg.size (sec.take n) = cfg.descriptor.take n := by
          rw [← flat, patch_take, Config.descriptor]
      _ = (cfg.descriptor.take rest.length).take n := by
          rw [List.take_take]
          congr 1
          omega
      _ = rest.take 8 := by rw [← wanted, ← hn, take_numBytes]
  rw [← hn] at filled bytes
  refine stateTxConfig_sends hcfg remain filled bytes ?_
  rcases Nat.lt_or_ge 8 rest.length with more | few
  · apply Or.inr
    have full : min rest.length ep0MaxPacketSize = 8 := Nat.min_eq_right (Nat.le_of_lt more)
    have room : Room cfg.sections 0 rest.length := room_of_fit fit
    have left : (rest.drop 8).length = rest.length - 8 := List.length_drop
    rw [hsecs] at room
    dsimp only
    rw [full, start.2]
    refine ⟨by omega, ?_, ?_, ?_⟩
    · have all : rest <+: cfg.descriptor := ⟨cfg.descriptor.drop rest.length, by
        conv => lhs; lhs; rw [wanted]
        exact List.take_append_drop _ _⟩
      have after := prefix_drop all 8
      rwa [Config.descriptor, patch_drop] at after
    · intro other hother
      rw [hsecs] at hother
      cases hother
      omega
    · rw [List.drop_zero, hsecs, left]
      obtain ⟨here, beyond⟩ := room
      refine ⟨by omega, ?_⟩
      have same : rest.length - 8 - (sec.length - 8) = rest.length - (sec.length - 0) := by omega
      rw [same]
      exact beyond
  · exact .inl few

/-! ## Whole transfers -/

def Interrupt.Ordinary (i : Interrupt) : Prop := i.setupEnd = false ∧ i.sentStall = false

lemma ep0Handler_ordinary {i : Interrupt} (ordinary : i.Ordinary) :
    ep0Handler dev fuel s i = match s.ep0State with
      | .idle => if i.outPktReady then readAndDispatchRequest dev fuel s i.fifo else .ok s
      | .tx => stateTx dev none s
      | .txConfig => stateTxConfig dev fuel s
      | .rx => stateRx s i.fifo
      | .stall => .ok s
      | .status => .ok s := by
  obtain ⟨noEnd, noStall⟩ := ordinary
  simp only [ep0Handler, noEnd, noStall]
  cases s.ep0State <;> rfl

lemma step_of_ok {t : State} {i : Interrupt} (h : ep0Handler dev fuel s i = .ok t) :
    step dev fuel s i = some t := by
  rw [step, h]
  rfl

lemma pending_sends {i : Interrupt} (enough : 264 ≤ fuel) (ordinary : i.Ordinary)
    (pending : Pending dev s rest) :
    ∃ t, step dev fuel s i = some t ∧ Sends dev s t rest := by
  rcases pending with ⟨state, ready⟩ | ⟨state, ready⟩
  · obtain ⟨t, ht, sends⟩ := stateTx_sends ready (.inl rfl)
    refine ⟨t, step_of_ok ?_, sends⟩
    rw [ep0Handler_ordinary ordinary, state]
    exact ht
  · obtain ⟨t, ht, sends⟩ := txConfig_sends enough ready
    refine ⟨t, step_of_ok ?_, sends⟩
    rw [ep0Handler_ordinary ordinary, state]
    exact ht

lemma transfer_run (enough : 264 ≤ fuel) {t : State} (sends : Sends dev s t rest)
    {later : List Interrupt} (ordinary : ∀ i ∈ later, i.Ordinary)
    (count : later.length = rest.length / 8) :
    ∃ u ps, runFrom (step dev fuel) t later = some u ∧ u.sent = s.sent ++ ps ∧ Stream rest ps ∧
      u.ep0State = .idle := by
  induction later generalizing s t rest with
  | nil =>
    rw [List.length_nil] at count
    have few : rest.length < 8 := by omega
    refine ⟨t, [⟨rest, true⟩], rfl, ?_, .short few, sends.ended few⟩
    rw [sends.sent, List.take_of_length_le (Nat.le_of_lt few), decide_eq_true few]
  | cons i later ih =>
    rw [List.length_cons] at count
    have full : 8 ≤ rest.length := by omega
    obtain ⟨u, hu, next⟩ := pending_sends enough (ordinary i List.mem_cons_self) (sends.more full)
    have less : later.length = (rest.drop 8).length / 8 := by
      rw [List.length_drop]
      omega
    obtain ⟨v, ps, hv, sent, stream, idle⟩ :=
      ih next (fun j hj => ordinary j (List.mem_cons_of_mem i hj)) less
    refine ⟨v, _, ?_, ?_, .full full stream, idle⟩
    · rw [runFrom_cons hu]
      exact hv
    · rw [sent, sends.sent, List.append_assoc, decide_eq_false (Nat.not_lt.mpr full)]
      rfl

lemma sends_after {u : State} {r : Except Fault State} (h : ∃ t, r = .ok t ∧ Sends dev u t rest)
    (same : u.sent = s.sent) :
    ∃ t, r = .ok t ∧ Sends dev s t rest := by
  obtain ⟨t, ht, sent, ended, more⟩ := h
  exact ⟨t, ht, same ▸ sent, ended, more⟩

lemma descriptor_cases {value : Nat} {desc : List UInt8} (h : dev.descriptor value = some desc) :
    (value / 256 = 1 ∧ desc = dev.device) ∨
    (value / 256 = 2 ∧ ∃ cfg, dev.configs[value % 256]? = some cfg ∧ desc = cfg.descriptor) ∨
    (value / 256 = 3 ∧ dev.strings[value % 256]? = some desc) := by
  rw [Device.descriptor] at h
  split at h
  · rename_i kind
    exact .inl ⟨kind, (Option.some.inj h).symm⟩
  · rename_i kind
    obtain ⟨cfg, hcfg, same⟩ := Option.map_eq_some_iff.mp h
    exact .inr (.inl ⟨kind, cfg, hcfg, same.symm⟩)
  · rename_i kind
    exact .inr (.inr ⟨kind, h⟩)
  · cases h

lemma getDescriptor_sends {req : Request} {desc : List UInt8} (enough : 264 ≤ fuel)
    (hdesc : dev.descriptor req.value = some desc)
    (fit : ∀ cfg, req.value / 256 = 2 → dev.configs[req.value % 256]? = some cfg →
      cfg.OffsetsFit (min desc.length req.length)) :
    ∃ t, getDescriptor dev fuel s req = .ok t ∧ Sends dev s t (desc.take req.length) := by
  have size : (desc.take req.length).length = min req.length desc.length := List.length_take
  have cut : desc.take req.length = desc.take (desc.take req.length).length := by
    rw [List.take_eq_take_iff, size]
    omega
  rcases descriptor_cases hdesc with ⟨kind, rfl⟩ | ⟨kind, cfg, hcfg, rfl⟩ | ⟨kind, hstr⟩
  · -- the device descriptor
    simp only [getDescriptor, kind]
    refine sends_after (stateTx_sends ⟨⟨.device, 0⟩, dev.device, rfl, rfl, ?_, cut, ?_⟩
      (.inl rfl)) rfl
    · dsimp only
      omega
    · simp only [limit, lengthByte_eq dev.length_byte, size]
      omega
  · -- a configuration
    obtain ⟨bound, -⟩ := List.getElem?_eq_some_iff.mp hcfg
    simp only [getDescriptor, kind, numConfigurations_eq, if_neg (Nat.not_le.mpr bound), hcfg]
    refine sends_after (firstConfig_sends enough hcfg ⟨rfl, rfl⟩ rfl ?_ cut ?_) rfl
    · simp only [limit, size, ← cfg.length_descriptor]
      omega
    · rw [size, Nat.min_comm]
      exact fit cfg kind hcfg
  · -- a string
    simp only [getDescriptor, kind, hstr]
    refine sends_after (stateTx_sends ⟨⟨.string (req.value % 256), 0⟩, desc, rfl, hstr, ?_, cut, ?_⟩
      (.inl rfl)) rfl
    · dsimp only
      omega
    · have length := dev.string_lengths desc (List.mem_of_getElem? hstr)
      simp only [limit, lengthByte_eq length, size]
      omega

lemma offsetsFit_of_small (small : ∀ sec ∈ cfg.sections, sec.length < 256) (n : Nat) :
    cfg.OffsetsFit n := by
  intro i sec hsec
  exact .inl (small sec (List.mem_of_getElem? hsec))

/-- A SETUP packet, and the interrupt that asks for the next one to send. -/
def setupPacket (bytes : List UInt8) : Interrupt :=
  { setupEnd := false, sentStall := false, outPktReady := true, fifo := fun i => bytes[i]?.getD 0 }

def inSent : Interrupt :=
  { setupEnd := false, sentStall := false, outPktReady := false, fifo := fun _ => 0 }

/-- Control IN: a supported GET_DESCRIPTOR and the transmit interrupts after it send the first
`wLength` bytes of the descriptor in full packets, and data end with the packet that is not
full. -/
theorem descriptor_sent (dev : Device) (fuel : Nat) (enough : 264 ≤ fuel) (s : State)
    (idle : s.ep0State = .idle) (setup : Interrupt) (req : Request) (desc : List UInt8)
    (ordinary : setup.Ordinary) (ready : setup.outPktReady = true)
    (hreq : Request.ofBytes setup.fifo = req) (standard : req.isStandard = true)
    (get_descriptor : req.request = 6) (hdesc : dev.descriptor req.value = some desc)
    (fit : ∀ cfg, req.value / 256 = 2 → dev.configs[req.value % 256]? = some cfg →
      cfg.OffsetsFit (min desc.length req.length))
    (later : List Interrupt) (quiet : ∀ i ∈ later, i.Ordinary)
    (count : later.length = min desc.length req.length / 8) :
    ∃ t ps, runFrom (step dev fuel) s (setup :: later) = some t ∧ t.sent = s.sent ++ ps ∧
      Transfer (desc.take req.length) ps ∧ t.ep0State = .idle := by
  obtain ⟨t, ht, sends⟩ := getDescriptor_sends enough hdesc fit (s := s)
  have first : step dev fuel s setup = some t := by
    apply step_of_ok
    rw [ep0Handler_ordinary ordinary, idle]
    simp only [ready, readAndDispatchRequest, hreq, standard, standardRequest, get_descriptor,
      if_true]
    exact ht
  have packets : later.length = (desc.take req.length).length / 8 := by
    rw [count, List.length_take, Nat.min_comm]
  obtain ⟨u, ps, hu, sent, stream, done⟩ := transfer_run enough sends quiet packets
  refine ⟨u, ps, ?_, sent, stream.transfer, done⟩
  rw [runFrom_cons first]
  exact hu

/-- The whole configuration descriptor of the serial port. -/
theorem serial_configuration_sent : ∃ t ps,
    runFrom (step cdcSerial 264) init
      (setupPacket [0x80, 6, 0, 2, 0, 0, 255, 0] :: List.replicate 8 inSent) = some t ∧
      t.sent = [] ++ ps ∧ Transfer (cdcConfig.descriptor.take 255) ps ∧ t.ep0State = .idle := by
  have quiet : ∀ i ∈ List.replicate 8 inSent, i.Ordinary := by
    intro i hi
    obtain rfl := List.eq_of_mem_replicate hi
    exact ⟨rfl, rfl⟩
  refine descriptor_sent cdcSerial 264 (Nat.le_refl _) init rfl
    (setupPacket [0x80, 6, 0, 2, 0, 0, 255, 0]) ⟨0x80, 6, 0x200, 255⟩ cdcConfig.descriptor
    ⟨rfl, rfl⟩ rfl rfl rfl rfl rfl ?_ _ quiet rfl
  intro cfg _ hcfg
  obtain rfl := Option.some.inj hcfg
  exact offsetsFit_of_small (by decide) _

def longSection : Device where
  device := cdcDevice
  configs := [{
    sections := [cdcConfiguration, List.replicate 256 0 ++ List.replicate 44 1]
    count := by decide
    sizes := by decide +kernel
    first := ⟨_, _, rfl, cdcConfiguration_long⟩ }]
  strings := []
  length_byte := cdcDevice_length
  num_configurations := by decide
  string_lengths := by decide

/-- Eight bytes that were asked for are all sent, but data end comes with an empty packet after
them; and of the ones that end the long section only seven are sent. -/
theorem full_packet_not_marked :
    (runFrom (step cdcSerial 264) init [setupPacket [0x80, 6, 0, 1, 0, 0, 8, 0]]).map
        (fun t => (t.sent, t.ep0State)) = some ([⟨cdcDevice.take 8, false⟩], .tx) ∧
      (runFrom (step cdcSerial 264) init [setupPacket [0x80, 6, 0, 1, 0, 0, 8, 0], inSent]).map
        (fun t => (t.sent, t.ep0State)) =
          some ([⟨cdcDevice.take 8, false⟩, ⟨[], true⟩], .idle) ∧
      (runFrom (step longSection 264) init
        (setupPacket [0x80, 6, 0, 2, 0, 0, 53, 1] :: List.replicate 38 inSent)).map
        (fun t => (t.sent.flatMap Packet.bytes).drop 9) =
          some (List.replicate 256 0 ++ List.replicate 7 1 ++ List.replicate 37 0) := by
  refine ⟨?_, ?_, ?_⟩ <;> decide +kernel

end Usb
