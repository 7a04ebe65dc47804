import UBoot.Lib.ByteMemory
import UBoot.Lib.Ring

/-!
# Circular buffers (lib_generic/circbuf.c)

A circular buffer is a queue that drops its oldest bytes when it is full.
-/

namespace CircularBuffer

open ByteMemory

/-- `circbuf_t`; the pointers as offsets from `data`, where `end` is `totalsize`. -/
structure Circbuf where
  size : UInt32              -- current number of bytes held
  totalsize : UInt32         -- number of bytes allocated
  top : Nat                  -- current buffer start
  tail : Nat                 -- space for next element
  data : Mem

def bufInit (size : UInt32) (malloced : Mem) : Circbuf := ⟨0, size, 0, 0, malloced⟩

/-- The loop of `buf_pop`: the bytes stored in `dest`, and `p`. -/
def popLoop (buf : Circbuf) : Nat → Nat → List UInt8 × Nat
  | 0, p => ([], p)
  | left + 1, p =>
    let p' := if p + 1 = buf.totalsize.toNat then 0 else p + 1
    let rest := popLoop buf left p'
    (buf.data p :: rest.1, rest.2)

/-- `buf_pop`: what it returns, and what is in `dest`. -/
def bufPop (buf : Circbuf) (len : UInt32) : Int32 × List UInt8 × Circbuf :=
  let len := if buf.size < len then buf.size else len
  let popped := popLoop buf len.toNat buf.top
  (len.toInt32, popped.1, { buf with top := popped.2, size := buf.size - len })

/-- The loop of `buf_push` over the bytes of `src`: `p`, and the buffer. -/
def pushLoop : List UInt8 → Nat → Circbuf → Nat × Circbuf
  | [], p, buf => (p, buf)
  | c :: src, p, buf =>
    let buf := { buf with data := store buf.data p c }
    let p := if p + 1 = buf.totalsize.toNat then 0 else p + 1
    -- "Make sure pushing too much data just replaces old data"
    let buf := if buf.size < buf.totalsize then { buf with size := buf.size + 1 }
      else { buf with top := if buf.top + 1 = buf.totalsize.toNat then 0 else buf.top + 1 }
    pushLoop src p buf

def bufPush (buf : Circbuf) (src : Mem) (len : UInt32) : Int32 × Circbuf :=
  let pushed := pushLoop (slice src 0 len.toNat) buf.tail buf
  (len.toInt32, { pushed.2 with tail := pushed.1 })

inductive Call where
  | push (src : Mem) (len : UInt32)
  | pop (len : UInt32)

inductive Result where
  | pushed (ret : Int32)
  | popped (ret : Int32) (dest : List UInt8)

def call (buf : Circbuf) : Call → Result × Circbuf
  | .push src len =>
    let r := bufPush buf src len
    (.pushed r.1, r.2)
  | .pop len =>
    let r := bufPop buf len
    (.popped r.1 r.2.1, r.2.2)

def calls (buf : Circbuf) : List Call → List Result × Circbuf
  | [] => ([], buf)
  | c :: rest =>
    let first := call buf c
    let later := calls first.2 rest
    (first.1 :: later.1, later.2)

/-- The same calls to a queue of at most `n` bytes. -/
def queueCall (n : Nat) (held : List UInt8) : Call → Result × List UInt8
  | .push src len => (.pushed len.toInt32, Ring.push n held (slice src 0 len.toNat))
  | .pop len =>
    (.popped (Int32.ofNat (min len.toNat held.length)) (held.take (min len.toNat held.length)),
      held.drop (min len.toNat held.length))

def queueCalls (n : Nat) (held : List UInt8) : List Call → List Result × List UInt8
  | [] => ([], held)
  | c :: rest =>
    let first := queueCall n held c
    let later := queueCalls n first.2 rest
    (first.1 :: later.1, later.2)

structure Consistent (buf : Circbuf) : Prop where
  size : buf.size ≤ buf.totalsize
  top : buf.top < buf.totalsize.toNat
  tail : buf.tail = (buf.top + buf.size.toNat) % buf.totalsize.toNat

structure Represents (n : Nat) (held : List UInt8) (buf : Circbuf) : Prop where
  total : buf.totalsize.toNat = n
  size : buf.size.toNat = held.length
  holds : Ring.Holds buf.data n buf.top held
  tail : buf.tail = (buf.top + held.length) % n

variable {n : Nat} {held : List UInt8} {buf : Circbuf}

lemma Represents.consistent (rep : Represents n held buf) : Consistent buf where
  size := by
    rw [UInt32.le_iff_toNat_le, rep.size, rep.total]
    exact rep.holds.room
  top := by
    rw [rep.total]
    exact rep.holds.inside
  tail := by rw [rep.total, rep.size, rep.tail]

lemma represents_init {size : UInt32} (some : 1 ≤ size) (malloced : Mem) :
    Represents size.toNat [] (bufInit size malloced) where
  total := rfl
  size := rfl
  holds := by
    refine ⟨Nat.zero_le _, UInt32.le_iff_toNat_le.mp some, ?_⟩
    intro i low
    exact absurd low (Nat.not_lt_zero i)
  tail := (Nat.zero_mod _).symm

lemma popLoop_eq (total : buf.totalsize.toNat = n) {top : Nat}
    (holds : Ring.Holds buf.data n top held) {left : Nat} (enough : left ≤ held.length) :
    popLoop buf left top = (held.take left, (top + left) % n) := by
  induction left generalizing top held with
  | zero => rw [popLoop, List.take_zero, add_zero, Nat.mod_eq_of_lt holds.inside]
  | succ left ih =>
    cases held with
    | nil => exact absurd enough (Nat.not_succ_le_zero left)
    | cons c held =>
      have first : buf.data top = c := by
        have cell := holds.cell 0 (Nat.zero_lt_succ _)
        rwa [add_zero, Nat.mod_eq_of_lt holds.inside] at cell
      have rest : Ring.Holds buf.data n ((top + 1) % n) held := holds.drop 1
      have step : (if top + 1 = n then 0 else top + 1) = (top + 1) % n :=
        Ring.next_eq holds.inside
      rw [popLoop, total, step, ih rest (Nat.le_of_succ_le_succ enough), first, Nat.mod_add_mod,
        add_assoc, add_comm 1 left]
      rfl

lemma represents_pop (rep : Represents n held buf) (len : UInt32) :
    ∃ buf', call buf (.pop len) = ((queueCall n held (.pop len)).1, buf') ∧
      Represents n (queueCall n held (.pop len)).2 buf' := by
  have enough : min len.toNat held.length ≤ held.length := min_le_right _ _
  obtain ⟨count, which, small⟩ : ∃ count : UInt32,
      (if buf.size < len then buf.size else len) = count ∧
        count.toNat = min len.toNat held.length := by
    refine ⟨_, rfl, ?_⟩
    split_ifs with more
    · rw [UInt32.lt_iff_toNat_lt, rep.size] at more
      rw [rep.size, min_eq_right (le_of_lt more)]
    · rw [UInt32.lt_iff_toNat_lt, rep.size] at more
      rw [min_eq_left (Nat.le_of_not_lt more)]
  have popped := popLoop_eq rep.total rep.holds enough
  have ret : count.toInt32 = Int32.ofNat (min len.toNat held.length) := by
    rw [← small, ← UInt32.toInt32_ofNat', UInt32.ofNat_toNat]
  refine ⟨{ buf with top := (buf.top + count.toNat) % n, size := buf.size - count }, ?_, ?_⟩
  · rw [call, bufPop]
    rw [which, small, popped, ret]
    rfl
  · have some : count ≤ buf.size := by
      rw [UInt32.le_iff_toNat_le, rep.size, small]
      exact enough
    have left : (buf.size - count).toNat = held.length - count.toNat := by
      rw [UInt32.toNat_sub_of_le _ _ some, rep.size]
    rw [queueCall, ← small]
    refine ⟨rep.total, ?_, rep.holds.drop count.toNat, ?_⟩
    · rw [List.length_drop]
      exact left
    · dsimp only
      rw [rep.tail, List.length_drop, Nat.mod_add_mod]
      congr 1
      omega

lemma next_tail {p : Nat} (rep : Represents n held { buf with tail := p }) :
    Ring.next n p = (buf.top + (held.length + 1)) % n := by
  have tail : p = (buf.top + held.length) % n := rep.tail
  have holds : Ring.Holds buf.data n buf.top held := rep.holds
  rw [tail, Ring.next_place (Nat.zero_lt_of_lt holds.inside)]

lemma represents_room {p : Nat} (rep : Represents n held { buf with tail := p }) (c : UInt8)
    (room : buf.size < buf.totalsize) :
    Represents n (Ring.push n held [c])
      { buf with
        size := buf.size + 1
        tail := Ring.next n p
        data := store buf.data p c } := by
  have step := next_tail rep
  have total : buf.totalsize.toNat = n := rep.total
  have size : buf.size.toNat = held.length := rep.size
  have tail : p = (buf.top + held.length) % n := rep.tail
  have holds : Ring.Holds buf.data n buf.top held := rep.holds
  rw [UInt32.lt_iff_toNat_lt, size, total] at room
  rw [Ring.push_room room]
  refine ⟨total, ?_, ?_, ?_⟩
  · rw [List.length_append]
    rw [UInt32.toNat_add, size, UInt32.toNat_one, Nat.mod_eq_of_lt]
    · rfl
    · have bound := buf.totalsize.toNat_lt
      omega
  · refine holds.put room ?_ fun q other => store_other _ c (tail ▸ other)
    rw [← tail]
    exact store_same _ p c
  · rw [List.length_append]
    exact step

lemma represents_full {p : Nat} (rep : Represents n held { buf with tail := p }) (c : UInt8)
    (none_left : ¬ buf.size < buf.totalsize) :
    Represents n (Ring.push n held [c])
      { buf with
        top := Ring.next n buf.top
        tail := Ring.next n p
        data := store buf.data p c } := by
  have total : buf.totalsize.toNat = n := rep.total
  have size : buf.size.toNat = held.length := rep.size
  have tail : p = (buf.top + held.length) % n := rep.tail
  have holds : Ring.Holds buf.data n buf.top held := rep.holds
  rw [UInt32.lt_iff_toNat_lt, size, total] at none_left
  have full : held.length = n := le_antisymm holds.room (Nat.le_of_not_lt none_left)
  have first : p = buf.top := by
    rw [tail, full, Nat.add_mod_right, Nat.mod_eq_of_lt holds.inside]
  have count : (held.drop 1 ++ [c]).length = n := by
    have := holds.inside
    rw [List.length_append, List.length_drop, List.length_singleton]
    omega
  rw [Ring.push_full (Nat.zero_lt_of_lt holds.inside) full]
  refine ⟨total, ?_, ?_, ?_⟩
  · rw [count, ← full]
    exact size
  · dsimp only
    rw [Ring.next_eq holds.inside, first]
    exact holds.turn full (store_same _ _ c) fun q other => store_other _ c other
  · dsimp only
    rw [count, first, Ring.next_eq holds.inside, Nat.add_mod_right, Nat.mod_mod]

lemma represents_pushLoop (src : List UInt8) {p : Nat}
    (rep : Represents n held { buf with tail := p }) :
    Represents n (Ring.push n held src)
      { (pushLoop src p buf).2 with tail := (pushLoop src p buf).1 } := by
  induction src generalizing held buf p with
  | nil =>
    rw [Ring.push_nil rep.holds.room]
    exact rep
  | cons c src ih =>
    have total : buf.totalsize.toNat = n := rep.total
    rw [Ring.push_cons, pushLoop]
    by_cases room : buf.size < buf.totalsize
    · rw [if_pos room, total]
      exact ih (represents_room rep c room)
    · rw [if_neg room, total]
      exact ih (represents_full rep c room)

lemma represents_call (rep : Represents n held buf) (c : Call) :
    (call buf c).1 = (queueCall n held c).1 ∧
      Represents n (queueCall n held c).2 (call buf c).2 := by
  cases c with
  | push src len => exact ⟨rfl, represents_pushLoop (slice src 0 len.toNat) rep⟩
  | pop len =>
    obtain ⟨buf', popped, rep'⟩ := represents_pop rep len
    rw [popped]
    exact ⟨rfl, rep'⟩

lemma represents_calls (rep : Represents n held buf) (cs : List Call) :
    (calls buf cs).1 = (queueCalls n held cs).1 ∧
      Represents n (queueCalls n held cs).2 (calls buf cs).2 := by
  induction cs generalizing buf held with
  | nil => exact ⟨rfl, rep⟩
  | cons c cs ih =>
    obtain ⟨first, rep'⟩ := represents_call rep c
    obtain ⟨later, last⟩ := ih rep'
    rw [calls, queueCalls, first, later]
    exact ⟨rfl, last⟩

/-- A circular buffer is a queue that drops its oldest bytes, and its pointers and its size agree
behind every call. -/
theorem drops_oldest {size : UInt32} (some : 1 ≤ size) (malloced : Mem) (cs : List Call) :
    let made := calls (bufInit size malloced) cs
    let queue := queueCalls size.toNat [] cs
    made.1 = queue.1 ∧ Consistent made.2 ∧ made.2.totalsize = size ∧
      made.2.size.toNat = queue.2.length := by
  intro made queue
  obtain ⟨results, rep⟩ := represents_calls (represents_init some malloced) cs
  exact ⟨results, rep.consistent, UInt32.toNat_inj.mp rep.total, rep.size⟩

/-- Four bytes pushed into a buffer of three, and two popped. -/
theorem drops_oldest_three :
    let made := calls (bufInit 3 fun _ => 0) [.push (fun k => UInt8.ofNat k) 4, .pop 2]
    made.1 = [.pushed 4, .popped 2 [1, 2]] ∧ Consistent made.2 := by
  have some : 1 ≤ (3 : UInt32) := by decide
  obtain ⟨results, consistent, -⟩ := drops_oldest some (fun _ => 0)
    [.push (fun k => UInt8.ofNat k) 4, .pop 2]
  exact ⟨results.trans rfl, consistent⟩

end CircularBuffer
