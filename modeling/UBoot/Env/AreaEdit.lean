import Mathlib.Data.List.Chain
import Mathlib.Data.List.Flatten
import UBoot.Env.SetEnv

/-!
# The loops of cmd_nvedit.c over a well-formed area

One lemma for each loop: what it finds in an area that stores given entries.
Together they show that no loop leaves the area.
-/

namespace AreaScan

open ByteMemory EnvArea SetEnv

variable {es : List Entry} {d : Mem} {rest tail : List UInt8} {a : Nat} {e : Entry}

def NoDouble (x y : UInt8) : Prop := ¬ (x = 0 ∧ y = 0)

lemma text_chain {t : List UInt8} (h : (0 : UInt8) ∉ t) : (t ++ [0]).IsChain NoDouble := by
  induction t with
  | nil => exact List.isChain_singleton _
  | cons c t ih =>
    have hc : c ≠ 0 := fun heq => h (heq ▸ List.mem_cons_self)
    rw [List.cons_append, List.isChain_cons]
    exact ⟨fun y _ both => hc both.1, ih (fun hm => h (List.mem_cons_of_mem _ hm))⟩

lemma packed_chain (es : List Entry) : (packed es).IsChain NoDouble := by
  induction es with
  | nil => exact List.isChain_nil
  | cons e es ih =>
    have hsplit : packed (e :: es) = (e.text ++ [0]) ++ packed es := by
      simp [packed_cons]
    rw [hsplit, List.isChain_append]
    refine ⟨text_chain e.text_no_nul, ih, ?_⟩
    intro x _ y hy both
    cases es with
    | nil => simp at hy
    | cons f fs =>
      obtain ⟨c, t, ht⟩ := List.exists_cons_of_ne_nil f.text_ne_nil
      have hyc : c = y := by simpa [packed_cons, ht] using hy
      have hmem : (0 : UInt8) ∈ f.text := by
        rw [ht, hyc, both.2]
        exact List.mem_cons_self
      exact f.text_no_nul hmem

lemma packed_getLast (h : es ≠ []) : (packed es).getLast? = some 0 := by
  obtain ⟨fs, e, rfl⟩ := List.eq_nil_or_concat es |>.resolve_left h
  simp [packed_append, packed_cons]

lemma skipToNul_text {t : List UInt8} (left : Nat) (held : Holds d a (t ++ 0 :: rest))
    (noNul : (0 : UInt8) ∉ t) (room : t.length < left) :
    skipToNul d left a = some (a + t.length) := by
  induction t generalizing a left with
  | nil =>
    obtain ⟨left, rfl⟩ := Nat.exists_eq_add_of_lt room
    simp [skipToNul, held.1]
  | cons c t ih =>
    obtain ⟨left, rfl⟩ := Nat.exists_eq_add_of_lt room
    have hc : d a ≠ 0 := by
      rw [held.1]
      exact fun heq => noNul (heq ▸ List.mem_cons_self)
    have hnext := ih (t.length + 1 + left) held.2
      (fun hm => noNul (List.mem_cons_of_mem _ hm)) (by omega)
    simp only [List.length_cons]
    rw [show t.length + 1 + left + 1 = (t.length + 1 + left) + 1 from rfl, skipToNul,
      if_neg hc, hnext]
    congr 1
    omega

lemma envmatch_text {s m : List UInt8} (hs : (61 : UInt8) ∉ s) (hm0 : (0 : UInt8) ∉ m)
    (hm : (61 : UInt8) ∉ m) (held : Holds d a (m ++ 61 :: rest)) :
    envmatch d s a = some (if s = m then ((a + m.length + 1 : Nat) : Int) else -1) := by
  induction s generalizing m a with
  | nil =>
    cases m with
    | nil =>
      have ha : d a = 61 := held.1
      simp [envmatch, ha]
    | cons x m =>
      have ha : d a = x := held.1
      have h0 : x ≠ 0 := fun heq => hm0 (heq ▸ List.mem_cons_self)
      have h61 : x ≠ 61 := fun heq => hm (heq ▸ List.mem_cons_self)
      simp [envmatch, ha, h0, h61]
  | cons c s ih =>
    have hc : c ≠ 61 := fun heq => hs (heq ▸ List.mem_cons_self)
    cases m with
    | nil =>
      have ha : d a = 61 := held.1
      simp [envmatch, ha, hc]
    | cons x m =>
      have ha : d a = x := held.1
      by_cases hx : c = x
      · subst hx
        have hnext := ih (fun h => hs (List.mem_cons_of_mem _ h))
          (fun h => hm0 (List.mem_cons_of_mem _ h)) (fun h => hm (List.mem_cons_of_mem _ h))
          held.2
        have he : a + 1 + m.length + 1 = a + (m.length + 1) + 1 := by omega
        simp [envmatch, ha, hc, hnext, he]
      · simp [envmatch, ha, hx]

lemma envmatch_entry (name : Name) (held : Holds d a (e.text ++ rest)) :
    envmatch d name.val a =
      some (if e.name = name then ((a + name.val.length + 1 : Nat) : Int) else -1) := by
  have hheld : Holds d a (e.name.val ++ 61 :: (e.value.val ++ rest)) := by
    simpa [Entry.text] using held
  have hm := envmatch_text name.property.2 e.name.property.1 e.name.property.2 hheld
  rw [hm]
  by_cases h : e.name = name
  · subst h; simp
  · have h' : name.val ≠ e.name.val := fun heq => h (Subtype.ext heq.symm)
    simp [h, h']

lemma entry_first_ne_zero (held : Holds d a (e.text ++ rest)) : d a ≠ 0 := by
  obtain ⟨c, t, ht⟩ := List.exists_cons_of_ne_nil e.text_ne_nil
  rw [ht] at held
  rw [held.1]
  intro heq
  exact e.text_no_nul (ht ▸ heq ▸ List.mem_cons_self)

lemma holds_entry (held : Holds d a (packed (e :: es) ++ rest)) :
    Holds d a (e.text ++ 0 :: (packed es ++ rest)) ∧
      Holds d (a + e.size) (packed es ++ rest) := by
  have hfirst : Holds d a (e.text ++ 0 :: (packed es ++ rest)) := by
    simpa [packed_cons] using held
  refine ⟨hfirst, ?_⟩
  have hsize := e.text_length
  have hrest := (holds_append.mp hfirst).2.2
  rwa [show a + e.text.length + 1 = a + e.size by omega] at hrest

lemma search_absent {n : Nat} {name : Name} (fuel nxt : Nat)
    (held : Holds d a (packed es ++ 0 :: tail)) (absent : ¬ Defines es name)
    (room : a + used es < n) (enough : es.length < fuel) :
    ∃ nxt', search n d name.val fuel a nxt = some ⟨-1, a + used es, nxt'⟩ := by
  induction es generalizing fuel a nxt with
  | nil =>
    obtain ⟨fuel, rfl⟩ := Nat.exists_eq_add_of_lt enough
    have ha : d a = 0 := held.1
    simp only [used_nil, add_zero] at room
    refine ⟨nxt, ?_⟩
    simp [search, ha, not_le.mpr room]
  | cons e es ih =>
    obtain ⟨fuel, rfl⟩ := Nat.exists_eq_add_of_lt enough
    obtain ⟨hentry, hrest⟩ := holds_entry held
    have hsize := e.text_length
    rw [used_cons] at room
    have hne : e.name ≠ name := fun heq => absent ⟨e, List.mem_cons_self, heq⟩
    have hskip := skipToNul_text (n - a) hentry e.text_no_nul (by omega)
    have hmatch : envmatch d name.val a = some (-1) := by
      rw [envmatch_entry name hentry, if_neg hne]
    have hin : ¬ n ≤ a := by omega
    obtain ⟨nxt', hnext⟩ := ih ((e :: es).length + fuel) (a + e.text.length)
      hrest (fun ⟨f, hf, hname⟩ => absent ⟨f, List.mem_cons_of_mem _ hf, hname⟩)
      (by omega) (by simp; omega)
    refine ⟨nxt', ?_⟩
    rw [search, if_neg hin, if_neg (entry_first_ne_zero hentry), hskip]
    simp only [hmatch]
    rw [if_neg (by decide), show a + e.text.length + 1 = a + e.size by omega, hnext, used_cons]
    congr 2
    omega

lemma search_present {n : Nat} {name : Name} {pre post : List Entry} (fuel nxt : Nat)
    (held : Holds d a (packed (pre ++ e :: post) ++ 0 :: tail)) (absent : ¬ Defines pre name)
    (present : e.name = name) (room : a + used (pre ++ e :: post) < n) (enough : pre.length < fuel)
    :
    search n d name.val fuel a nxt = some ⟨((a + used pre + name.val.length + 1 : Nat) : Int),
      a + used pre, a + used pre + e.text.length⟩ := by
  induction pre generalizing fuel a nxt with
  | nil =>
    obtain ⟨fuel, rfl⟩ := Nat.exists_eq_add_of_lt enough
    rw [List.nil_append] at held room
    obtain ⟨hentry, -⟩ := holds_entry held
    have hsize := e.text_length
    rw [used_cons] at room
    have hskip := skipToNul_text (n - a) hentry e.text_no_nul (by omega)
    have hmatch := envmatch_entry name hentry
    rw [if_pos present] at hmatch
    have hin : ¬ n ≤ a := by omega
    rw [search, if_neg hin, if_neg (entry_first_ne_zero hentry), hskip]
    simp only [hmatch]
    rw [if_pos (by omega)]
    simp
  | cons f pre ih =>
    obtain ⟨fuel, rfl⟩ := Nat.exists_eq_add_of_lt enough
    rw [List.cons_append] at held room
    obtain ⟨hentry, hrest⟩ := holds_entry held
    have hsize := f.text_length
    rw [used_cons] at room
    have hne : f.name ≠ name := fun heq => absent ⟨f, List.mem_cons_self, heq⟩
    have hskip := skipToNul_text (n - a) hentry f.text_no_nul (by omega)
    have hmatch : envmatch d name.val a = some (-1) := by
      rw [envmatch_entry name hentry, if_neg hne]
    have hin : ¬ n ≤ a := by omega
    have hnext := ih ((f :: pre).length + fuel) (a + f.text.length) hrest
      (fun ⟨g, hg, hname⟩ => absent ⟨g, List.mem_cons_of_mem _ hg, hname⟩)
      (by omega) (by simp; omega)
    rw [search, if_neg hin, if_neg (entry_first_ne_zero hentry), hskip]
    simp only [hmatch]
    rw [if_neg (by decide), show a + f.text.length + 1 = a + f.size by omega, hnext, used_cons]
    simp only [add_assoc]

lemma findEnd_run {s : List UInt8} (left : Nat) (held : Holds d a (s ++ 0 :: tail))
    (chain : s.IsChain NoDouble) (last : s.getLast? = some 0) (room : s.length ≤ left) :
    findEnd d left a = some (a + s.length - 1) := by
  induction s generalizing a left with
  | nil => simp at last
  | cons c s ih =>
    obtain ⟨left, rfl⟩ := Nat.exists_eq_add_of_le' (show 1 ≤ left by simp at room; omega)
    cases s with
    | nil =>
      have hc : d a = 0 := by
        rw [held.1]
        simpa using last
      have hnext : d (a + 1) = 0 := held.2.1
      simp [findEnd, hc, hnext]
    | cons c' s =>
      have hboth : ¬ (d a = 0 ∧ d (a + 1) = 0) := by
        rw [held.1, held.2.1]
        exact (List.isChain_cons_cons.mp chain).1
      have hnext := ih left held.2 chain.tail
        (by simpa using last) (by simpa using room)
      rw [findEnd, if_neg hboth, hnext]
      simp only [List.length_cons]
      congr 1
      omega

lemma appendOffset_of_stores {n : Nat} (h : Stores n d es) :
    appendOffset n d = some (used es) := by
  obtain ⟨held, room⟩ := h
  cases es with
  | nil =>
    have h0 : d 0 = 0 := held.1
    have h1 : d 1 = 0 := held.2.1
    obtain ⟨k, rfl⟩ := Nat.exists_eq_add_of_le' (show 2 ≤ n by simpa [image, closing] using room)
    simp [appendOffset, findEnd, h0, h1]
  | cons e es =>
    have hne : e :: es ≠ [] := List.cons_ne_nil e es
    have hlen : used (e :: es) + 1 ≤ n := le_trans (image_length_ge _) room
    have hpos : 2 ≤ used (e :: es) := by
      rw [used_cons]
      simp only [Entry.size]
      omega
    have hheld : Holds d 0 (packed (e :: es) ++ 0 :: []) := held
    have hend := findEnd_run (n - 1) hheld (packed_chain _)
      (packed_getLast hne) (by simp only [used] at hlen; omega)
    rw [appendOffset, hend]
    change some (if 0 < 0 + used (e :: es) - 1 then 0 + used (e :: es) - 1 + 1
      else 0 + used (e :: es) - 1) = some (used (e :: es))
    rw [if_pos (by omega)]
    congr 1
    omega

lemma used_lt_of_stores {n : Nat} (h : Stores n d es) :
    used es < n :=
  lt_of_lt_of_le (Nat.lt_of_succ_le (image_length_ge es)) h.2

end AreaScan

/-!
## Deleting and appending entries in place

The two loops that write into the area: shifting the remaining entries to the
front, and copying a new definition behind them. Neither touches a byte past
the area.
-/

namespace AreaEdit

open ByteMemory EnvArea SetEnv AreaScan

lemma shiftDown_run {d : Mem} {s tail : List UInt8} {env nxt : Nat} (left : Nat)
    (held : Holds d nxt (s ++ 0 :: tail)) (chain : s.IsChain NoDouble)
    (last : s.getLast? = some 0) (room : s.length ≤ left) (behind : env < nxt) :
    ∃ d', shiftDown d left env nxt = some (d', env + s.length - 1) ∧ Holds d' env s ∧
      ∀ i, i < env ∨ env + s.length ≤ i → d' i = d i := by
  induction s generalizing d env nxt left with
  | nil => simp at last
  | cons c s ih =>
    obtain ⟨left, rfl⟩ := Nat.exists_eq_add_of_le' (show 1 ≤ left by simp at room; omega)
    have hread : d nxt = c := held.1
    have hahead : store d env c (nxt + 1) = d (nxt + 1) := store_other d c (by omega)
    cases s with
    | nil =>
      have hc : c = 0 := by simpa using last
      subst hc
      have hnext : d (nxt + 1) = 0 := held.2.1
      refine ⟨store d env 0, ?_, ⟨store_same d env 0, trivial⟩, ?_⟩
      · simp [shiftDown, hread, hahead, hnext]
      · rintro i (hi | hi)
        · exact store_other d 0 (by omega)
        · exact store_other d 0 (by simp at hi; omega)
    | cons c' s =>
      have hnext : d (nxt + 1) = c' := held.2.1
      have hboth : ¬ (c = 0 ∧ c' = 0) := (List.isChain_cons_cons.mp chain).1
      have hheld : Holds (store d env c) (nxt + 1) (c' :: s ++ 0 :: tail) :=
        holds_congr (fun i hi _ => store_other d c (by omega)) held.2
      obtain ⟨d', hrun, hdone, hframe⟩ := ih left hheld chain.tail
        (by simpa using last) (by simpa using room) (show env + 1 < nxt + 1 by omega)
      refine ⟨d', ?_, ⟨?_, hdone⟩, ?_⟩
      · simp only [shiftDown, hread, store_same, hahead, hnext, if_neg hboth, hrun,
          List.length_cons]
        congr 2
        omega
      · rw [hframe env (.inl (by omega)), store_same]
      · rintro i (hi | hi)
        · rw [hframe i (.inl (by omega)), store_other d c (by omega)]
        · rw [hframe i (.inr (by simp at hi ⊢; omega)),
            store_other d c (by simp at hi; omega)]

lemma image_split (pre post : List Entry) (e : Entry) :
    image (pre ++ e :: post) = packed pre ++ (packed (e :: post) ++ [0]) := by
  have hne : pre ++ e :: post ≠ [] := by simp
  rw [image, closing_of_ne hne, packed_append, List.append_assoc]

lemma deleteEntry_of_stores {n : Nat} {d : Mem} {pre post : List Entry} {e : Entry}
    (h : Stores n d (pre ++ e :: post)) :
    ∃ d', deleteEntry n d (used pre) (used pre + e.text.length) = some d' ∧
      Stores n d' (pre ++ post) ∧ ∀ i, n ≤ i → d' i = d i := by
  obtain ⟨held, room⟩ := h
  rw [image_split, holds_append, zero_add] at held
  obtain ⟨hpre, hrest⟩ := held
  obtain ⟨-, hpost⟩ := holds_entry hrest
  change Holds d (used pre + e.size) (packed post ++ [0]) at hpost
  have hsize := e.text_length
  have hlen : used pre + e.size + used post + 1 ≤ n := by
    rw [image_split] at room
    simp only [List.length_append, List.length_singleton] at room
    have := used_cons e post
    simp only [used] at this room ⊢
    omega
  have hin : ¬ n ≤ used pre + e.size := by omega
  have hnext : used pre + e.text.length + 1 = used pre + e.size := by omega
  cases post with
  | nil =>
    have hclosed : d (used pre + e.size) = 0 := hpost.1
    simp only [deleteEntry, hnext, if_neg hin, if_pos hclosed]
    cases pre with
    | nil =>
      refine ⟨store (store d 0 0) 1 0, rfl, ⟨⟨?_, store_same _ 1 0, trivial⟩, ?_⟩, ?_⟩
      · rw [store_other _ 0 (by decide), store_same]
      · simp only [Entry.size, used_nil] at hlen
        simp only [image, closing, List.append_nil, packed_nil, List.nil_append,
          List.length_cons, List.length_nil]
        omega
      · intro i hi
        rw [store_other _ 0 (by omega), store_other _ 0 (by omega)]
    | cons f pre =>
      have hpos : 0 < used (f :: pre) := by rw [used_cons]; simp only [Entry.size]; omega
      refine ⟨store d (used (f :: pre)) 0, if_pos hpos, ⟨?_, ?_⟩, ?_⟩
      · rw [List.append_nil, image, holds_append, zero_add]
        refine ⟨holds_congr (fun i _ hi => store_other d 0 ?_) hpre, store_same _ _ 0, trivial⟩
        simp only [used] at hi ⊢
        omega
      · simp only [image, closing, List.append_nil, List.length_append, List.length_singleton]
        simp only [used] at hlen
        omega
      · intro i hi
        exact store_other d 0 (by omega)
  | cons f post =>
    obtain ⟨hfirst, -⟩ := holds_entry hpost
    have hopen : d (used pre + e.size) ≠ 0 := entry_first_ne_zero hfirst
    have hbehind : used pre < used pre + e.size := by omega
    obtain ⟨d', hrun, hdone, hframe⟩ := shiftDown_run (n - 1 - (used pre + e.size))
      hpost (packed_chain _) (packed_getLast (List.cons_ne_nil f post))
      (by simp only [used] at hlen ⊢; omega) hbehind
    have hpos : 2 ≤ (packed (f :: post)).length := by
      have := used_cons f post
      simp only [used, Entry.size] at this
      omega
    have hend : used pre + (packed (f :: post)).length - 1 + 1 =
        used pre + (packed (f :: post)).length := by omega
    refine ⟨store d' (used pre + (packed (f :: post)).length) 0, ?_, ⟨?_, ?_⟩, ?_⟩
    · simp only [deleteEntry, hnext, if_neg hin, if_neg hopen, hrun, hend]
    · rw [image_split, holds_append, zero_add, holds_append]
      refine ⟨?_, ?_, store_same _ _ 0, trivial⟩
      · refine holds_congr (fun i _ hi => ?_) hpre
        have hlt : i < used pre := by simpa [used] using hi
        rw [store_other d' 0 (by omega), hframe i (.inl hlt)]
      · refine holds_congr (fun i _ hi => store_other d' 0 ?_) hdone
        simp only [used] at hi ⊢
        omega
    · rw [image_split]
      simp only [List.length_append, List.length_singleton]
      simp only [used] at hlen
      omega
    · intro i hi
      simp only [used] at hlen
      rw [store_other d' 0 (by simp only [used]; omega),
        hframe i (.inr (by simp only [used]; omega))]

def joinArgs : UInt8 → List (List UInt8) → List UInt8
  | _, [] => []
  | sep, v :: vs => sep :: (v ++ joinArgs 32 vs)

lemma joinArgs_length (sep : UInt8) (args : List (List UInt8)) :
    (joinArgs sep args).length = (args.map (fun v => v.length + 1)).sum := by
  induction args generalizing sep with
  | nil => rfl
  | cons v vs ih => simp [joinArgs, ih]; omega

lemma joinArgs_cons (sep : UInt8) (v : List UInt8) (vs : List (List UInt8)) :
    joinArgs sep (v :: vs) = sep :: List.intercalate [32] (v :: vs) := by
  induction vs generalizing sep v with
  | nil => simp [joinArgs, List.intercalate]
  | cons w vs ih =>
    rw [joinArgs, ih 32 w]
    simp [List.intercalate]

lemma joinArgs_no_nul (sep : UInt8) {args : List (List UInt8)} (hsep : sep ≠ 0)
    (hargs : ∀ v ∈ args, (0 : UInt8) ∉ v) : (0 : UInt8) ∉ joinArgs sep args := by
  induction args generalizing sep with
  | nil => simp [joinArgs]
  | cons v vs ih =>
    have htail := ih 32 (by decide) (fun w hw => hargs w (List.mem_cons_of_mem _ hw))
    have hv := hargs v List.mem_cons_self
    simp only [joinArgs, List.mem_cons, List.mem_append, not_or]
    exact ⟨fun h => hsep h.symm, hv, htail⟩

lemma copyArgs_run {d : Mem} {env : Nat} (sep : UInt8) (args : List (List UInt8))
    (closed : d env = 0) :
    (copyArgs d env sep args).2 = env + (joinArgs sep args).length ∧
      Holds (copyArgs d env sep args).1 env (joinArgs sep args ++ [0]) ∧
      ∀ i, i < env ∨ env + (joinArgs sep args).length < i →
        (copyArgs d env sep args).1 i = d i := by
  induction args generalizing d env sep with
  | nil => exact ⟨rfl, ⟨closed, trivial⟩, fun i _ => rfl⟩
  | cons v vs ih =>
    let d1 := blit (store d env sep) (env + 1) (v ++ [0])
    have hv : Holds d1 (env + 1) (v ++ [0]) := holds_blit _ _ _
    have hclosed : d1 (env + 1 + v.length) = 0 := (holds_append.mp hv).2.1
    have hsep : d1 env = sep := by
      rw [show d1 env = store d env sep env from blit_before _ _ (by omega), store_same]
    obtain ⟨hend, hheld, hframe⟩ := ih 32 hclosed
    have hlen : (joinArgs sep (v :: vs)).length = 1 + v.length + (joinArgs 32 vs).length := by
      simp [joinArgs]; omega
    refine ⟨?_, ?_, ?_⟩
    · rw [hlen]
      simp only [copyArgs]
      rw [hend]
      omega
    · simp only [joinArgs, List.cons_append, List.append_assoc, copyArgs]
      constructor
      · rw [hframe env (.inl (by omega))]
        exact hsep
      · rw [holds_append]
        refine ⟨holds_congr (fun i _ hi => hframe i (.inl hi)) (holds_append.mp hv).1, hheld⟩
    · intro i hi
      rw [hlen] at hi
      simp only [copyArgs]
      rw [hframe i (by omega)]
      rcases hi with hi | hi
      · rw [show d1 i = store d env sep i from blit_before _ _ (by omega),
          store_other d sep (by omega)]
      · rw [show d1 i = store d env sep i from blit_after _ _ (by simp; omega),
          store_other d sep (by omega)]

lemma writeEntry_run (d : Mem) (env : Nat) (name : List UInt8) (args : List (List UInt8)) :
    Holds (writeEntry d env name args) env (name ++ joinArgs 61 args ++ [0, 0]) ∧
      ∀ i, i < env ∨ env + neededLen name args ≤ i → writeEntry d env name args i = d i := by
  have hname : Holds (blit d env (name ++ [0])) env (name ++ [0]) := holds_blit _ _ _
  obtain ⟨hname, hclosed⟩ := holds_append.mp hname
  obtain ⟨hend, hheld, hframe⟩ := copyArgs_run 61 args hclosed.1
  have hwrite : writeEntry d env name args =
      store (copyArgs (blit d env (name ++ [0])) (env + name.length) 61 args).1
        (env + name.length + (joinArgs 61 args).length + 1) 0 := by
    simp only [writeEntry, hend]
  have hneed : neededLen name args = name.length + 2 + (joinArgs 61 args).length := by
    rw [neededLen, joinArgs_length]
  rw [hwrite]
  constructor
  · rw [show name ++ joinArgs 61 args ++ [0, 0] = name ++ ((joinArgs 61 args ++ [0]) ++ [0]) by
      simp, holds_append, holds_append]
    refine ⟨?_, ?_, ?_⟩
    · refine holds_congr (fun i _ hi => ?_) hname
      rw [store_other _ 0 (by omega), hframe i (.inl hi)]
    · refine holds_congr (fun i _ hi => store_other _ 0 ?_) hheld
      simp only [List.length_append, List.length_singleton] at hi
      omega
    · refine ⟨?_, trivial⟩
      simp only [List.length_append, List.length_singleton]
      exact store_same _ _ 0
  · intro i hi
    rw [store_other _ 0 (by omega), hframe i (by omega)]
    rcases hi with hi | hi
    · exact blit_before _ _ hi
    · exact blit_after _ _ (by simp; omega)

end AreaEdit
