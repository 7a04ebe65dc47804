import UBoot.Usb.ControlIn

/-!
# Endpoint 0 under any interrupts

Which interrupts make endpoint 0 use an index outside a table, put bytes of no live object, or
store received bytes where no buffer is. The string index is not checked, and SET_LINE_CODING
asks for data without a place for it.
-/

namespace Usb

open Runs

def StringInTable (dev : Device) (s : State) (i : Interrupt) : Prop :=
  i.Ordinary → s.ep0State = .idle → i.outPktReady = true →
    (Request.ofBytes i.fifo).isStandard = true → (Request.ofBytes i.fifo).request = 6 →
    (Request.ofBytes i.fifo).value / 256 = 3 →
    (Request.ofBytes i.fifo).value % 256 < dev.strings.length

def NoOutData (s : State) (i : Interrupt) : Prop :=
  i.Ordinary → s.ep0State = .rx → s.ep0DataRemain = 0

/-- The interrupts that endpoint 0 handles inside its tables and buffers. -/
structure Handled (dev : Device) (s : State) (i : Interrupt) : Prop where
  string : StringInTable dev s i
  no_data : NoOutData s i

variable {dev : Device} {s : State}

/-- The bytes that a configuration transfer still has to send are there. An offset that wrapped
leaves more of them, not less. -/
structure Within (cfg : Config) (i offset n : Nat) : Prop where
  byte : offset < 256
  inside : ∀ sec, cfg.sections[i]? = some sec → offset ≤ sec.length
  left : offset + n ≤ (cfg.sections.drop i).flatten.length

def ConfigInside (dev : Device) (s : State) : Prop :=
  ∃ cfg, dev.configs[s.configIndex]? = some cfg ∧
    (s.ep0DataRemain = 0 ∨ Within cfg s.configSection s.sectionOffset s.ep0DataRemain ∧
      s.ep0Data = some ⟨.section s.configIndex s.configSection, s.sectionOffset⟩)

structure Kept (dev : Device) (s : State) : Prop where
  tx : s.ep0State = .tx → ∃ rest, TxReady dev none s rest
  txConfig : s.ep0State = .txConfig → ConfigInside dev s

lemma kept_of_other (notTx : s.ep0State ≠ .tx) (notConfig : s.ep0State ≠ .txConfig) : Kept dev s :=
  ⟨fun h => absurd h notTx, fun h => absurd h notConfig⟩

lemma kept_of_idle (idle : s.ep0State = .idle) : Kept dev s := by
  apply kept_of_other
  · rw [idle]
    exact Ep0State.noConfusion
  · rw [idle]
    exact Ep0State.noConfusion

variable {fuel : Nat} {coding : Option (List UInt8)}

lemma putSection_within {cfg : Config} {f : Filling} {n : Nat}
    (pos : Within cfg f.configSection f.sectionOffset n) (some_left : f.toSend ≠ 0)
    (enough : f.toSend ≤ n) :
    ∃ g k, putSection cfg f = .ok g ∧ k ≤ f.toSend ∧ g.toSend = f.toSend - k ∧
      g.toSend + (cfg.sections.length - g.configSection) <
        f.toSend + (cfg.sections.length - f.configSection) ∧
      Within cfg g.configSection g.sectionOffset (n - k) := by
  obtain ⟨byte, inside, left⟩ := pos
  have count := cfg.count
  have bound : f.configSection < cfg.sections.length := by
    apply Classical.byContradiction
    intro past
    rw [List.drop_eq_nil_of_le (by omega), List.flatten_nil, List.length_nil] at left
    omega
  have hsec : cfg.sections[f.configSection]? = some cfg.sections[f.configSection] :=
    List.getElem?_eq_getElem bound
  have tail : cfg.sections.drop f.configSection =
      cfg.sections[f.configSection] :: cfg.sections.drop (f.configSection + 1) :=
    List.drop_eq_getElem_cons bound
  generalize cfg.sections[f.configSection] = sec at hsec tail
  have fits := inside sec hsec
  rw [tail, List.flatten_cons, List.length_append] at left
  generalize hk : min (sec.length - f.sectionOffset) f.toSend = k
  simp only [putSection, hsec, if_neg (Nat.not_lt.mpr fits), hk]
  by_cases ended : (f.sectionOffset + k) % 256 = sec.length
  · rw [if_pos ended]
    refine ⟨_, k, rfl, by omega, rfl, by dsimp only; omega, by dsimp only; omega, ?_, ?_⟩
    · intro _ _
      exact Nat.zero_le _
    · dsimp only
      rw [Nat.mod_eq_of_lt (by omega)]
      omega
  · rw [if_neg ended]
    refine ⟨_, k, rfl, by omega, rfl, by dsimp only; omega, by dsimp only; omega, ?_, ?_⟩
    · intro other hother
      obtain rfl := Option.some.inj (hsec.symm.trans hother)
      dsimp only
      omega
    · dsimp only
      rw [tail, List.flatten_cons, List.length_append]
      omega

lemma putSections_within {cfg : Config} {n : Nat} {f : Filling}
    (pos : Within cfg f.configSection f.sectionOffset n) (enough : f.toSend ≤ n)
    (fuel_enough : f.toSend + (cfg.sections.length - f.configSection) < fuel) :
    ∃ g, putSections cfg fuel f = .ok g ∧
      Within cfg g.configSection g.sectionOffset (n - f.toSend) := by
  induction fuel generalizing f n with
  | zero => omega
  | succ fuel ih =>
    rw [putSections]
    by_cases zero : f.toSend = 0
    · rw [if_pos zero]
      refine ⟨f, rfl, ?_⟩
      rw [zero, Nat.sub_zero]
      exact pos
    · rw [if_neg zero]
      obtain ⟨g, k, hg, hk, left, less, next⟩ := putSection_within pos zero enough
      rw [hg]
      obtain ⟨u, hu, within⟩ := ih next (by omega) (by omega)
      refine ⟨u, hu, ?_⟩
      have all : n - k - g.toSend = n - f.toSend := by omega
      rwa [all] at within

lemma fillPacket_within {cfg : Config} (enough : 264 ≤ fuel)
    (hcfg : dev.configs[s.configIndex]? = some cfg)
    (pos : Within cfg s.configSection s.sectionOffset s.ep0DataRemain)
    (data : s.ep0Data = some ⟨.section s.configIndex s.configSection, s.sectionOffset⟩) :
    ∃ f, fillPacket dev fuel cfg s (min s.ep0DataRemain ep0MaxPacketSize) = .ok f ∧
      Within cfg f.configSection f.sectionOffset
        (s.ep0DataRemain - min s.ep0DataRemain ep0MaxPacketSize) := by
  have packet : min s.ep0DataRemain ep0MaxPacketSize ≤ 8 := Nat.min_le_right _ _
  by_cases start : s.sectionOffset = 0 ∧ s.configSection = 0
  · rw [start.1, start.2] at data pos
    obtain ⟨sec, tail, hsecs, nine, filled⟩ :=
      fillPacket_first (by omega : 1 ≤ fuel) hcfg start data packet
    refine ⟨_, filled, by dsimp only; omega, ?_, ?_⟩
    · intro other hother
      dsimp only at hother ⊢
      rw [start.2, hsecs] at hother
      cases hother
      omega
    · have left := pos.left
      dsimp only
      rw [start.2]
      omega
  · have count := cfg.count
    let f : Filling :=
      ⟨[], min s.ep0DataRemain ep0MaxPacketSize, s.configSection, s.sectionOffset⟩
    have fuel_enough : f.toSend + (cfg.sections.length - f.configSection) < fuel := by
      dsimp only [f]
      omega
    rw [fillPacket, if_neg start]
    exact putSections_within (f := f) pos (Nat.min_le_left _ _) fuel_enough

lemma stateTxConfig_kept (enough : 264 ≤ fuel) (inside : ConfigInside dev s) :
    ∃ t, stateTxConfig dev fuel s = .ok t ∧ Kept dev t := by
  obtain ⟨cfg, hcfg, pos⟩ := inside
  have filled : ∃ f, fillPacket dev fuel cfg s (min s.ep0DataRemain ep0MaxPacketSize) = .ok f ∧
      (s.ep0DataRemain = 0 ∨ Within cfg f.configSection f.sectionOffset
        (s.ep0DataRemain - min s.ep0DataRemain ep0MaxPacketSize)) := by
    rcases pos with zero | ⟨within, data⟩
    · obtain ⟨f, hf, -⟩ := fillPacket_empty dev cfg s (fuel - 1)
      rw [Nat.sub_add_cancel (by omega)] at hf
      rw [zero, Nat.zero_min]
      exact ⟨f, hf, .inl rfl⟩
    · obtain ⟨f, hf, next⟩ := fillPacket_within enough hcfg within data
      exact ⟨f, hf, .inr next⟩
  obtain ⟨f, hf, next⟩ := filled
  refine ⟨_, by simp only [stateTxConfig, hcfg, hf]; rfl, ?_⟩
  rw [finish]
  split
  · refine ⟨fun h => Ep0State.noConfusion h, fun _ => ⟨cfg, hcfg, ?_⟩⟩
    simp only [dataSend, txConfigState]
    by_cases past : cfg.sections.length ≤ f.configSection
    · rw [if_pos past]
      exact .inl rfl
    simp only [if_neg past]
    by_cases none_left : s.ep0DataRemain - min s.ep0DataRemain ep0MaxPacketSize = 0
    · exact .inl none_left
    · refine .inr ⟨next.resolve_left (by omega), ?_⟩
      rw [if_neg none_left]
  · exact kept_of_idle rfl

lemma stateTx_state {t : State} (h : stateTx dev coding s = .ok t) : t.ep0State ≠ .txConfig := by
  rw [stateTx] at h
  cases hput : dataPut dev coding s.ep0Data (min s.ep0DataRemain ep0MaxPacketSize) with
  | error e => simp [hput, bind, Except.bind] at h
  | ok bytes =>
    rw [hput] at h
    obtain rfl := Except.ok.inj h
    rw [finish]
    split
    · exact Ep0State.noConfusion
    · exact Ep0State.noConfusion

lemma stateTx_kept {rest : List UInt8} (ready : TxReady dev coding s rest)
    (one_call : coding = none ∨ rest.length < 8) :
    ∃ t, stateTx dev coding s = .ok t ∧ Kept dev t := by
  obtain ⟨t, ht, sends⟩ := stateTx_sends ready one_call
  refine ⟨t, ht, ?_⟩
  rcases Nat.lt_or_ge rest.length 8 with few | enough
  · exact kept_of_idle (sends.ended few)
  · rcases sends.more enough with ⟨-, left⟩ | ⟨state, -⟩
    · exact ⟨fun _ => ⟨_, left⟩, fun h => absurd h (stateTx_state ht)⟩
    · exact absurd state (stateTx_state ht)

lemma txReady_start (place : Place) {bytes : List UInt8} {n : Nat}
    (object : dev.contents coding place = some bytes) (data : s.ep0Data = some ⟨place, 0⟩)
    (remain : s.ep0DataRemain = n) (inside : n ≤ bytes.length) :
    TxReady dev coding s (bytes.take n) := by
  have size : (bytes.take n).length = n := by
    rw [List.length_take]
    exact Nat.min_eq_left inside
  refine ⟨⟨place, 0⟩, bytes, data, object, ?_, ?_, ?_⟩
  · rw [size, Nat.zero_add]
    exact inside
  · rw [size]
    rfl
  · rw [size]
    exact remain

lemma getDescriptor_kept {req : Request} (enough : 264 ≤ fuel)
    (string : req.value / 256 = 3 → req.value % 256 < dev.strings.length) :
    ∃ t, getDescriptor dev fuel s req = .ok t ∧ Kept dev t := by
  rw [getDescriptor]
  split
  · refine stateTx_kept (txReady_start .device rfl rfl rfl ?_) (.inl rfl)
    rw [lengthByte_eq dev.length_byte]
    exact Nat.min_le_left _ _
  · rw [numConfigurations_eq]
    split
    · exact ⟨_, rfl, kept_of_idle rfl⟩
    rename_i low
    have bound := Nat.not_le.mp low
    have hcfg := List.getElem?_eq_getElem bound
    rw [hcfg]
    apply stateTxConfig_kept enough
    refine ⟨_, hcfg, .inr ⟨⟨Nat.zero_lt_succ 255, ?_, ?_⟩, rfl⟩⟩
    · intro _ _
      exact Nat.zero_le _
    · simp only [limit, List.drop_zero, Nat.zero_add, ← Config.size_eq]
      exact Nat.min_le_left _ _
  · rename_i kind
    have bound := string kind
    have hstr := List.getElem?_eq_getElem bound
    rw [hstr]
    refine stateTx_kept (txReady_start (.string _) hstr rfl rfl ?_) (.inl rfl)
    rw [lengthByte_eq (dev.string_lengths _ (List.getElem_mem bound))]
    exact Nat.min_le_left _ _
  · exact ⟨_, rfl, kept_of_idle rfl⟩

lemma standardRequest_kept {req : Request} (enough : 264 ≤ fuel) (idle : s.ep0State = .idle)
    (string : req.request = 6 → req.value / 256 = 3 → req.value % 256 < dev.strings.length) :
    ∃ t, standardRequest dev fuel s req = .ok t ∧ Kept dev t := by
  rw [standardRequest]
  split
  · exact ⟨_, rfl, kept_of_idle rfl⟩
  · rename_i get
    exact getDescriptor_kept enough (string get)
  · refine ⟨_, rfl, kept_of_idle ?_⟩
    rw [setConfiguration]
    split
    · rfl
    · rfl
  · split
    · exact ⟨_, rfl, kept_of_idle rfl⟩
    · exact ⟨s, rfl, kept_of_idle idle⟩

lemma classRequest_kept {req : Request} :
    ∃ t, classRequest dev s req = .ok t ∧ Kept dev t := by
  rw [classRequest]
  split
  · exact ⟨_, rfl, kept_of_other Ep0State.noConfusion Ep0State.noConfusion⟩
  · -- the line coding is sent while it is live
    have short : (lineCoding.take 7).length < 8 := by decide
    exact stateTx_kept (txReady_start .lineCoding rfl rfl rfl (Nat.le_refl 7)) (.inr short)
  · exact ⟨_, rfl, kept_of_idle rfl⟩
  · exact ⟨_, rfl, kept_of_idle rfl⟩

variable {i : Interrupt}

lemma stateRx_empty {fifo : Nat → UInt8} (none_left : s.ep0DataRemain = 0) :
    ∃ t, stateRx s fifo = .ok t ∧ t.ep0State = .idle := by
  refine ⟨_, by rw [stateRx, none_left]; rfl, ?_⟩
  rfl

lemma stateRx_stores {fifo : Nat → UInt8} (some_left : s.ep0DataRemain ≠ 0) :
    ∃ e, stateRx s fifo = .error e := by
  have bytes : ¬ (List.range (min s.ep0DataRemain ep0MaxPacketSize)).map fifo = [] := by
    rw [List.map_eq_nil_iff, List.range_eq_nil, ep0MaxPacketSize]
    omega
  exact ⟨_, by simp only [stateRx, dataGet, if_neg bytes]; rfl⟩

lemma step_of_error {e : Fault} (h : ep0Handler dev fuel s i = .error e) :
    step dev fuel s i = none := by
  rw [step, h]
  rfl

lemma abandoned (not_ordinary : ¬ i.Ordinary) :
    ∃ t, ep0Handler dev fuel s i = .ok t ∧ Kept dev t := by
  refine ⟨abandon s i, ?_, kept_of_idle rfl⟩
  rw [ep0Handler]
  by_cases ended : i.setupEnd = true
  · rw [if_pos ended]
  rw [if_neg ended, if_pos]
  apply Classical.byContradiction
  intro quiet
  exact not_ordinary ⟨Bool.eq_false_iff.mpr ended, Bool.eq_false_iff.mpr quiet⟩

lemma handled_step (enough : 264 ≤ fuel) (kept : Kept dev s) (handled : Handled dev s i) :
    ∃ t, step dev fuel s i = some t ∧ Kept dev t := by
  suffices ∃ t, ep0Handler dev fuel s i = .ok t ∧ Kept dev t by
    obtain ⟨t, ht, next⟩ := this
    exact ⟨t, step_of_ok ht, next⟩
  by_cases ordinary : i.Ordinary
  · rw [ep0Handler_ordinary ordinary]
    cases state : s.ep0State with
    | idle =>
      by_cases ready : i.outPktReady = true
      · simp only [ready, if_true, readAndDispatchRequest]
        split
        · rename_i standard
          exact standardRequest_kept enough state
            (handled.string ordinary state ready standard)
        · exact classRequest_kept
      · simp only [ready]
        exact ⟨s, rfl, kept⟩
    | tx =>
      obtain ⟨rest, ready⟩ := kept.tx state
      exact stateTx_kept ready (.inl rfl)
    | txConfig => exact stateTxConfig_kept enough (kept.txConfig state)
    | rx =>
      obtain ⟨t, ht, idle⟩ := stateRx_empty (handled.no_data ordinary state)
      exact ⟨t, ht, kept_of_idle idle⟩
    | status => exact ⟨s, rfl, kept⟩
    | stall => exact ⟨s, rfl, kept⟩
  · exact abandoned ordinary

lemma unhandled_step (not_handled : ¬ Handled dev s i) : step dev fuel s i = none := by
  suffices ∃ e, ep0Handler dev fuel s i = .error e by
    obtain ⟨e, he⟩ := this
    exact step_of_error he
  by_cases string : StringInTable dev s i
  · have data : ¬ NoOutData s i := fun no_data => not_handled ⟨string, no_data⟩
    simp only [NoOutData, Classical.not_imp] at data
    obtain ⟨ordinary, state, some_left⟩ := data
    rw [ep0Handler_ordinary ordinary, state]
    exact stateRx_stores some_left
  · simp only [StringInTable, Classical.not_imp] at string
    obtain ⟨ordinary, state, ready, standard, get, kind, past⟩ := string
    have no_string := List.getElem?_eq_none (Nat.not_lt.mp past)
    rw [ep0Handler_ordinary ordinary, state]
    refine ⟨.index ((Request.ofBytes i.fifo).value % 256), ?_⟩
    simp only [ready, if_true, readAndDispatchRequest, standard, standardRequest, get,
      getDescriptor, kind, no_string]

/-- Endpoint 0 stays inside the tables, the live objects and the buffers exactly as long as no
string outside the table is asked for and no data is received in an OUT data phase. -/
theorem interrupts_inside_iff (dev : Device) (fuel : Nat) (enough : 264 ≤ fuel)
    (interrupts : List Interrupt) :
    (∃ t, runFrom (step dev fuel) init interrupts = some t) ↔
      StepsMeet (step dev fuel) (Handled dev) init interrupts :=
  arrives_iff (fun _ _ => handled_step enough) (fun _ _ _ => unhandled_step)
    (kept_of_idle rfl) interrupts

/-- Enumeration begins: the device descriptor in two packets, an address, the configuration, and
string 2. -/
theorem interrupts_inside_serial :
    StepsMeet (step cdcSerial 264) (Handled cdcSerial) init
      [setupPacket [0x80, 6, 0, 1, 0, 0, 18, 0], inSent, setupPacket [0, 5, 3, 0, 0, 0, 0, 0],
        setupPacket [0, 9, 1, 0, 0, 0, 0, 0], setupPacket [0x80, 6, 2, 3, 9, 4, 255, 0], inSent] :=
  (interrupts_inside_iff cdcSerial 264 (Nat.le_refl _) _).mp ⟨_, rfl⟩

/-- String 9 is not in the table of six; and the line coding that a host sets is stored over the
device descriptor, of which the first half was asked for before. -/
theorem line_coding_over_descriptor :
    ep0Handler cdcSerial 264 init (setupPacket [0x80, 6, 9, 3, 9, 4, 255, 0]) = .error (.index 9) ∧
    ∃ s, runFrom (step cdcSerial 264) init
        [setupPacket [0x80, 6, 0, 1, 0, 0, 8, 0],
          { setupEnd := true, sentStall := false, outPktReady := false, fifo := fun _ => 0 },
          setupPacket [0x21, 0x20, 0, 0, 0, 0, 7, 0]] = some s ∧
      ep0Handler cdcSerial 264 s (setupPacket [0x80, 0x25, 0, 0, 0, 0, 8]) =
        .error (.store (some ⟨.device, 8⟩) [0x80, 0x25, 0, 0, 0, 0, 8]) :=
  ⟨rfl, _, rfl, rfl⟩

end Usb
