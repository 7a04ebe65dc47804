import UBoot.Nand.GoodSpace
import UBoot.Nand.PageOps

/-!
# The loop that reads around bad blocks
-/

namespace ReadSkipBad

open Nand ByteMemory NandBase NandUtil PageOps GoodSpace Rank

section

variable {mtd : Mtd} {length o left pbuf : Nat} {chip : Chip} {ram : Mem}

lemma readLoop_done (fuel : Nat) :
    readLoop mtd length (fuel + 1) o 0 pbuf chip ram = some ⟨0, length, chip, ram⟩ := by
  rw [readLoop, if_pos rfl]

lemma readLoop_bad (fuel : Nat) (hleft : left ≠ 0) (bad : isGood mtd o = false) :
    readLoop mtd length (fuel + 1) o left pbuf chip ram =
      readLoop mtd length fuel (o + blockLeft mtd o) left pbuf chip ram := by
  rw [readLoop, if_neg hleft, if_pos (by simp [bad])]

lemma readLoop_read (fuel : Nat) (hleft : left ≠ 0) (good : isGood mtd o = true) {rval : Int}
    {chip' : Chip} {ram' : Mem}
    (h : nandRead mtd chip ram o (min left (blockLeft mtd o)) pbuf = some (rval, chip', ram')) :
    readLoop mtd length (fuel + 1) o left pbuf chip ram =
      if rval ≠ 0 ∧ rval ≠ -EUCLEAN then some ⟨rval, length - left, chip', ram'⟩
      else readLoop mtd length fuel (o + min left (blockLeft mtd o))
        (left - min left (blockLeft mtd o)) (pbuf + min left (blockLeft mtd o)) chip' ram' := by
  rw [readLoop, if_neg hleft, if_neg (by simp [good])]
  simp only [h]

end

lemma not_error {ret : Int} (h : ret = 0 ∨ ret = -EUCLEAN) : ¬ (ret ≠ 0 ∧ ret ≠ -EUCLEAN) := by
  rintro ⟨h0, hclean⟩
  exact h.elim h0 hclean

variable {mtd : Mtd} {chip : Chip}

/-- The buffer gets the good bytes of rank below `left`; cells and pages stay as they are. -/
structure Delivers (mtd : Mtd) (chip : Chip) (ram : Mem) (o left pbuf : Nat) (out : Chip)
    (ram' : Mem) : Prop where
  delivered : ∀ a, o ≤ a → a < mtd.geo.size → goodByte mtd a = true → rank (goodByte mtd) o a < left →
    ram' (pbuf + rank (goodByte mtd) o a) = chip.data a
  before : ∀ i, i < pbuf → ram' i = ram i
  data : out.data = chip.data
  coherent : Coherent mtd out

lemma readLoop_fits (length fuel o left pbuf : Nat) (ram : Mem) (coherent : Coherent mtd chip)
    (inside : o ≤ mtd.geo.size) (room : left ≤ rank (goodByte mtd) o mtd.geo.size)
    (enough : mtd.geo.size < fuel + o) :
    ∃ out ram', readLoop mtd length fuel o left pbuf chip ram = some ⟨0, length, out, ram'⟩ ∧
      Delivers mtd chip ram o left pbuf out ram' := by
  induction fuel generalizing o left pbuf chip ram with
  | zero => omega
  | succ fuel ih =>
    have hwidth := mtd.size_le
    by_cases hleft : left = 0
    · subst hleft
      exact ⟨chip, ram, readLoop_done fuel, fun a _ _ _ h => absurd h (by omega), fun _ _ => rfl, rfl,
        coherent⟩
    have hin : o < mtd.geo.size := by
      by_contra hout
      have := rank_le (goodByte mtd) o mtd.geo.size
      omega
    have hpos := blockLeft_pos mtd o
    have hend := blockEnd_le hin
    have hisgood := isGood_eq hin
    cases hgood : goodByte mtd o with
    | false =>
      have hsplit : ∀ a, o + blockLeft mtd o ≤ a → rank (goodByte mtd) o a =
          rank (goodByte mtd) (o + blockLeft mtd o) a := by
        intro a ha
        rw [rank_add (Nat.le_add_right _ _) ha,
          rank_bad hgood (Nat.le_add_right _ _) le_rfl, zero_add]
      rw [hsplit _ hend] at room
      obtain ⟨out, ram', hout, hdel⟩ := ih (o + blockLeft mtd o) left pbuf ram coherent hend room
        (by omega)
      refine ⟨out, ram', (readLoop_bad fuel hleft (hisgood.trans hgood)).trans hout, ?_, hdel.before,
        hdel.data, hdel.coherent⟩
      intro a ha hsize hgooda hlt
      have hbehind : o + blockLeft mtd o ≤ a := by
        by_contra hbefore
        rw [goodByte_block ha (not_le.mp hbefore), hgood] at hgooda
        exact Bool.false_ne_true hgooda
      rw [hsplit a hbehind] at hlt ⊢
      exact hdel.delivered a hbehind hsize hgooda hlt
    | true =>
      have hsplit : ∀ w a, w ≤ blockLeft mtd o → o + w ≤ a → rank (goodByte mtd) o a =
          w + rank (goodByte mtd) (o + w) a := by
        intro w a hw ha
        rw [rank_add (Nat.le_add_right o w) ha, rank_good hgood (Nat.le_add_right _ _) (by omega)]
        omega
      have hw : min left (blockLeft mtd o) ≤ blockLeft mtd o := min_le_right _ _
      obtain ⟨ret, mid, ram1, hmid, hret, hread⟩ := nandRead_range coherent ram pbuf
        (by omega : o + min left (blockLeft mtd o) ≤ mtd.geo.size) (by omega) (by omega)
      have hroom := hsplit _ mtd.geo.size hw (by omega)
      obtain ⟨out, ram', hout, hdel⟩ := ih (o + min left (blockLeft mtd o))
        (left - min left (blockLeft mtd o)) (pbuf + min left (blockLeft mtd o)) ram1 hread.coherent
        (by omega) (by omega) (by omega)
      refine ⟨out, ram', ?_, ?_, ?_, hdel.data.trans hread.data, hdel.coherent⟩
      · rw [readLoop_read fuel hleft (hisgood.trans hgood) hmid, if_neg (not_error hret), hout]
      · intro a ha hsize hgooda hlt
        by_cases hhere : a < o + min left (blockLeft mtd o)
        · have hrank := rank_good hgood ha (by omega)
          rw [hdel.before _ (by omega), hread.ram, if_pos (by omega), hrank]
          congr 1
          omega
        · have hrank := hsplit _ a hw (not_lt.mp hhere)
          have hrest := hdel.delivered a (not_lt.mp hhere) hsize hgooda (by omega)
          rw [hread.data] at hrest
          rw [hrank, ← add_assoc]
          exact hrest
      · intro i hi
        rw [hdel.before i (by omega), hread.ram, if_neg (by omega)]

variable {left : Nat}

lemma readLoop_count {length fuel o pbuf : Nat} {ram : Mem} {r : Result}
    (coherent : Coherent mtd chip) (h : readLoop mtd length fuel o left pbuf chip ram = some r) :
    chip.read.length ≤ r.chip.read.length := by
  induction fuel generalizing o left pbuf chip ram with
  | zero => exact nomatch h
  | succ fuel ih =>
    by_cases hleft : left = 0
    · subst hleft
      rw [readLoop_done] at h
      cases h
      exact le_rfl
    cases hgood : isGood mtd o with
    | false =>
      rw [readLoop_bad fuel hleft hgood] at h
      exact ih coherent h
    | true =>
      have hpos := blockLeft_pos mtd o
      have hle := blockLeft_le mtd o
      have hlt := mtd.geo.erasesize_lt
      by_cases hin : o + min left (blockLeft mtd o) ≤ mtd.geo.size
      · obtain ⟨ret, mid, ram1, hmid, hret, hread⟩ := nandRead_range coherent ram pbuf hin (by omega)
          (by omega)
        rw [readLoop_read fuel hleft hgood hmid, if_neg (not_error hret)] at h
        exact (le_of_lt hread.read).trans (ih hread.coherent h)
      · rw [readLoop_read fuel hleft hgood (nandRead_past (not_le.mp hin) _ _ _),
          if_pos ⟨by decide, by decide⟩] at h
        cases h
        exact le_rfl

lemma readLoop_mono {length fuel o pbuf : Nat} {ram : Mem} {r : Result} (k : Nat)
    (h : readLoop mtd length fuel o left pbuf chip ram = some r) :
    readLoop mtd length (fuel + k) o left pbuf chip ram = some r := by
  induction fuel generalizing o left pbuf chip ram with
  | zero => exact nomatch h
  | succ fuel ih =>
    have hadd : fuel + 1 + k = fuel + k + 1 := by omega
    rw [hadd]
    rw [readLoop] at h ⊢
    by_cases hleft : left = 0
    · rwa [if_pos hleft] at h ⊢
    by_cases hbad : ¬ isGood mtd o = true
    · rw [if_neg hleft, if_pos hbad] at h ⊢
      exact ih h
    rw [if_neg hleft, if_neg hbad] at h ⊢
    dsimp only at h ⊢
    cases hread : nandRead mtd chip ram o (min left (blockLeft mtd o)) pbuf with
    | none =>
      rw [hread] at h
      exact nomatch h
    | some w =>
      obtain ⟨rval, chip', ram'⟩ := w
      rw [hread] at h
      dsimp only at h ⊢
      by_cases hrval : rval ≠ 0 ∧ rval ≠ -EUCLEAN
      · rwa [if_pos hrval] at h ⊢
      · rw [if_neg hrval] at h ⊢
        exact ih h

lemma readLoop_noGood (length pbuf : Nat) (chip : Chip) (ram : Mem) {o : Nat} (hleft : left ≠ 0)
    (noGood : NoGood mtd o) (some_good : SomeGood mtd) :
    ∃ fuel, readLoop mtd length fuel o left pbuf chip ram =
      some ⟨-EINVAL, length - left, chip, ram⟩ := by
  obtain ⟨t, hot, ht⟩ := exists_isGood some_good o
  obtain ⟨n, first, hof, -, hfirst, -, -, hrun⟩ := seek_first
    (fun fuel o => readLoop mtd length fuel o left pbuf chip ram)
    (fun fuel _ => readLoop_bad fuel hleft) hot ht
  have hsize := size_le_of_noGood noGood hof hfirst
  have hpos := blockLeft_pos mtd first
  refine ⟨n + 1, (hrun 1).trans ?_⟩
  rw [readLoop_read 0 hleft hfirst (nandRead_past (by omega) _ _ _), if_pos ⟨by decide, by decide⟩]

lemma noGood_of_unread {length fuel pbuf o : Nat} {ram : Mem} {r : Result}
    (coherent : Coherent mtd chip) (hleft : left ≠ 0)
    (h : readLoop mtd length fuel o left pbuf chip ram = some r)
    (unread : r.chip.read.length = chip.read.length) : NoGood mtd o ∧ SomeGood mtd := by
  have hsome : SomeGood mtd := by
    by_contra hnone
    have hnever := never_returns (fun fuel o => readLoop mtd length fuel o left pbuf chip ram)
      (fun _ => rfl) (fun fuel _ => readLoop_bad fuel hleft) hnone fuel o
    exact nomatch h.symm.trans hnever
  refine ⟨?_, hsome⟩
  by_contra hgood
  obtain ⟨i, hoi, hi, hgoodi, -⟩ := exists_rank (Nat.pos_of_ne_zero hgood)
  obtain ⟨n, first, hof, hfi, hfirst, -, -, hrun⟩ := seek_first
    (fun fuel o => readLoop mtd length fuel o left pbuf chip ram)
    (fun fuel _ => readLoop_bad fuel hleft) hoi ((isGood_eq hi).trans hgoodi)
  have hfirstRun : readLoop mtd length fuel first left pbuf chip ram = some r := by
    refine (hrun fuel).symm.trans ?_
    rw [add_comm]
    exact readLoop_mono n h
  cases fuel with
  | zero => exact nomatch hfirstRun
  | succ fuel =>
    have hpos := blockLeft_pos mtd first
    have hle := blockLeft_le mtd first
    have hlt := mtd.geo.erasesize_lt
    have hend : first + blockLeft mtd first ≤ mtd.geo.size := blockEnd_le (by omega)
    obtain ⟨ret, mid, ram1, hmid, hret, hread⟩ := nandRead_range coherent ram pbuf
      (by omega : first + min left (blockLeft mtd first) ≤ mtd.geo.size) (by omega) (by omega)
    rw [readLoop_read fuel hleft hfirst hmid, if_neg (not_error hret)] at hfirstRun
    have hrest := readLoop_count hread.coherent hfirstRun
    have hgrow := hread.read
    omega

end ReadSkipBad
