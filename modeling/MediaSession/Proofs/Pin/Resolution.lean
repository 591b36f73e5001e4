import Mathlib.Algebra.BigOperators.Group.List.Basic
import Mathlib.Algebra.Ring.Int.Defs
import Mathlib.Data.List.Induction
import MediaSession.Pin

/-!
What the pins of a chain come to. The pipe is that of the last wiring pin. The start is the saturating sum of the
offsets behind the last fixed pin, which is the exact sum, cut off at the ends of the range, if they do not pull in both
directions, and the exact sum if the way there stays within the range.
-/
namespace MediaSession

namespace Time

/-- The exact sum of some offsets. -/
def total (offsets : List Time) : Int := (offsets.map micros).sum

theorem micros_add (a b : Time) :
    (a + b).micros = max (-0x8000000000000000) (min (a.micros + b.micros) 0x7FFFFFFFFFFFFFFF) := rfl

@[simp] theorem total_nil : total [] = 0 := rfl

@[simp] theorem total_cons (offset : Time) (rest : List Time) : total (offset :: rest) = offset.micros + total rest :=
  List.sum_cons

theorem total_perm {offsets others : List Time} (same : offsets.Perm others) : total offsets = total others :=
  (same.map micros).sum_eq

/-- No offset pulls back what another one has added. -/
def OneWay (offsets : List Time) : Prop :=
  (∀ offset ∈ offsets, 0 ≤ offset.micros) ∨ ∀ offset ∈ offsets, offset.micros ≤ 0

instance (offsets : List Time) : Decidable (OneWay offsets) := inferInstanceAs (Decidable (_ ∨ _))

theorem total_nonneg {offsets : List Time} (later : ∀ offset ∈ offsets, 0 ≤ offset.micros) : 0 ≤ total offsets := by
  induction offsets with
  | nil => simp
  | cons offset rest ih =>
    simp only [List.forall_mem_cons] at later
    have := ih later.2
    simp only [total_cons]
    omega

theorem total_nonpos {offsets : List Time} (earlier : ∀ offset ∈ offsets, offset.micros ≤ 0) : total offsets ≤ 0 := by
  induction offsets with
  | nil => simp
  | cons offset rest ih =>
    simp only [List.forall_mem_cons] at earlier
    have := ih earlier.2
    simp only [total_cons]
    omega

/-- Offsets of one direction leave the range at most once, so that it makes no difference when they are cut off. -/
theorem micros_foldl_add {offsets : List Time} (oneWay : OneWay offsets) (start : Time) :
    (offsets.foldl (· + ·) start).micros =
      max (-0x8000000000000000) (min (start.micros + total offsets) 0x7FFFFFFFFFFFFFFF) := by
  induction offsets generalizing start with
  | nil =>
    have := start.lower
    have := start.upper
    simp only [List.foldl_nil, total_nil]
    omega
  | cons offset rest ih =>
    have lower := start.lower
    have upper := start.upper
    rw [List.foldl_cons]
    cases oneWay with
    | inl later =>
      simp only [List.forall_mem_cons] at later
      have rising := total_nonneg later.2
      rw [ih (.inl later.2), micros_add, total_cons]
      omega
    | inr earlier =>
      simp only [List.forall_mem_cons] at earlier
      have falling := total_nonpos earlier.2
      rw [ih (.inr earlier.2), micros_add, total_cons]
      omega

/-- Every sum on the way is representable. -/
def StaysWithin (start : Time) (offsets : List Time) : Prop :=
  ∀ count ≤ offsets.length, -0x8000000000000000 ≤ start.micros + total (offsets.take count) ∧
    start.micros + total (offsets.take count) < 0x8000000000000000

instance (start : Time) (offsets : List Time) : Decidable (StaysWithin start offsets) :=
  inferInstanceAs (Decidable (∀ count ≤ offsets.length, _))

theorem micros_foldl_add_of_within {offsets : List Time} {start : Time} (within : StaysWithin start offsets) :
    (offsets.foldl (· + ·) start).micros = start.micros + total offsets := by
  induction offsets generalizing start with
  | nil => simp
  | cons offset rest ih =>
    have first := within 1 (by simp)
    have exact : (start + offset).micros = start.micros + offset.micros := by
      simp only [List.take_succ_cons, List.take_zero, total_cons, total_nil] at first
      rw [micros_add]
      omega
    have onward : StaysWithin (start + offset) rest := by
      intro count few
      have later := within (count + 1) (Nat.succ_le_succ few)
      rw [List.take_succ_cons, total_cons, ← Int.add_assoc, ← exact] at later
      exact later
    rw [List.foldl_cons, ih onward, exact, total_cons, Int.add_assoc]

end Time

namespace Pin

def start? : Pin → Option Time
  | fixed start => some start
  | _ => none

def offset? : Pin → Option Time
  | relative offset => some offset
  | _ => none

def pipe? : Pin → Option String
  | wiring pipe => some pipe
  | _ => none

end Pin

namespace PinChain

/-- Pipe of the last wiring pin. -/
def lastPipe (chain : PinChain) : Option String := chain.pins.reverse.findSome? Pin.pipe?

/-- Start of the last fixed pin, or the origin. -/
def base (chain : PinChain) : Time := (chain.pins.reverse.findSome? Pin.start?).getD .zero

/-- Offsets of the relative pins behind the last fixed pin. -/
def offsets (chain : PinChain) : List Time :=
  ((chain.pins.reverse.takeWhile fun pin => pin.start?.isNone).reverse).filterMap Pin.offset?

theorem resolve_push (chain : PinChain) (pin : Pin) : (chain.push pin).resolve = pin.refine chain.resolve := by
  simp [resolve, push]

theorem lastPipe_push (chain : PinChain) (pin : Pin) :
    (chain.push pin).lastPipe = pin.pipe?.or chain.lastPipe := by
  cases pin <;> simp [lastPipe, push, Pin.pipe?, List.findSome?_cons]

theorem base_push (chain : PinChain) (pin : Pin) : (chain.push pin).base = pin.start?.getD chain.base := by
  cases pin <;> simp [base, push, Pin.start?, List.findSome?_cons]

theorem offsets_push (chain : PinChain) (pin : Pin) :
    (chain.push pin).offsets = if pin.start?.isSome then [] else chain.offsets ++ pin.offset?.toList := by
  cases pin <;> simp [offsets, push, Pin.start?, Pin.offset?]

/-- Chains grow at their end. -/
theorem push_induction {holds : PinChain → Prop} (empty : holds .empty)
    (push : ∀ chain pin, holds chain → holds (chain.push pin)) (chain : PinChain) : holds chain := by
  obtain ⟨pins⟩ := chain
  induction pins using List.reverseRecOn with
  | nil => exact empty
  | append_singleton pins pin ih => exact push ⟨pins⟩ pin ih

theorem pipe_resolve (chain : PinChain) : chain.resolve.pipe = chain.lastPipe := by
  induction chain using push_induction with
  | empty => rfl
  | push chain pin ih =>
    rw [resolve_push, lastPipe_push, ← ih]
    cases pin <;> rfl

theorem start_resolve (chain : PinChain) : chain.resolve.start = chain.offsets.foldl (· + ·) chain.base := by
  induction chain using push_induction with
  | empty => rfl
  | push chain pin ih =>
    rw [resolve_push, offsets_push, base_push]
    cases pin with
    | fixed start => rfl
    | relative offset => simp [Pin.refine, Pin.start?, Pin.offset?, ih]
    | wiring pipe => simp [Pin.refine, Pin.start?, Pin.offset?, ih]

/-- The start goes on from the start found so far, whatever the pipe. -/
theorem start_foldl_congr (pins : List Pin) {position other : Position} (same : position.start = other.start) :
    (pins.foldl Pin.refine position).start = (pins.foldl Pin.refine other).start := by
  induction pins generalizing position other with
  | nil => exact same
  | cons pin rest ih =>
    apply ih
    cases pin <;> simp [Pin.refine, same]

/-- A fixed pin makes up for all that was in front of it. -/
theorem start_resolve_fixed (before after : List Pin) (start : Time) :
    (⟨before ++ .fixed start :: after⟩ : PinChain).resolve.start =
      (⟨.fixed start :: after⟩ : PinChain).resolve.start := by
  simp only [resolve, List.foldl_append, List.foldl_cons]
  exact start_foldl_congr after rfl

theorem start_foldl_filter (pins : List Pin) (position : Position) :
    (pins.foldl Pin.refine position).start =
      ((pins.filter fun pin => pin.pipe?.isNone).foldl Pin.refine position).start := by
  induction pins generalizing position with
  | nil => rfl
  | cons pin rest ih =>
    cases pin with
    | fixed start => exact ih _
    | relative offset => exact ih _
    | wiring pipe =>
      have unmoved : (Pin.refine position (.wiring pipe)).start = position.start := rfl
      exact (start_foldl_congr rest unmoved).trans (ih position)

/-- The pipe is that of the last wiring pin. The start is that of the last fixed pin and the offsets behind it, so that
pins in front of it and wiring pins anywhere make no difference; it is their exact sum, cut off at the ends of the range
and in any order, where the offsets go one way, and the exact sum where every sum on the way is representable. -/
theorem resolve_of_last_pins (chain : PinChain) :
    chain.resolve.pipe = chain.lastPipe ∧
    chain.resolve.start = chain.offsets.foldl (· + ·) chain.base ∧
    (∀ other : PinChain, other.base = chain.base → other.offsets = chain.offsets →
      other.resolve.start = chain.resolve.start) ∧
    (∀ before other start after, chain.pins = before ++ .fixed start :: after →
      (⟨other ++ .fixed start :: after⟩ : PinChain).resolve.start = chain.resolve.start) ∧
    (∀ other : PinChain, other.pins.filter (fun pin => pin.pipe?.isNone) =
        chain.pins.filter (fun pin => pin.pipe?.isNone) → other.resolve.start = chain.resolve.start) ∧
    (Time.OneWay chain.offsets →
      chain.resolve.start.micros =
        max (-0x8000000000000000) (min (chain.base.micros + Time.total chain.offsets) 0x7FFFFFFFFFFFFFFF) ∧
      ∀ other : PinChain, other.base = chain.base → other.offsets.Perm chain.offsets →
        other.resolve.start = chain.resolve.start) ∧
    (Time.StaysWithin chain.base chain.offsets →
      chain.resolve.start.micros = chain.base.micros + Time.total chain.offsets) := by
  refine ⟨chain.pipe_resolve, chain.start_resolve, ?_, ?_, ?_, ?_, ?_⟩
  · intro other base offsets
    rw [other.start_resolve, chain.start_resolve, base, offsets]
  · intro before other start after same
    have whole : chain = ⟨before ++ .fixed start :: after⟩ := congrArg PinChain.mk same
    rw [whole, start_resolve_fixed, start_resolve_fixed before]
  · intro other same
    rw [resolve, resolve, start_foldl_filter, same, ← start_foldl_filter]
  · intro oneWay
    refine ⟨?_, ?_⟩
    · rw [chain.start_resolve, Time.micros_foldl_add oneWay]
    · intro other base same
      have also : Time.OneWay other.offsets := by
        simpa only [Time.OneWay, same.mem_iff] using oneWay
      apply Time.ext
      rw [other.start_resolve, chain.start_resolve, Time.micros_foldl_add also, Time.micros_foldl_add oneWay, base,
        Time.total_perm same]
  · intro within
    rw [chain.start_resolve, Time.micros_foldl_add_of_within within]

theorem resolve_of_last_pins_trial :
    let late : Time := ⟨0x7FFFFFFFFFFFFFF0, by decide, by decide⟩
    let offset : Time := ⟨9, by decide, by decide⟩
    let chain : PinChain := ⟨[.relative offset, .wiring "left", .fixed late, .relative offset, .wiring "right"]⟩
    chain.resolve.pipe = some "right" ∧
    (⟨.fixed late :: [.relative offset, .wiring "right"]⟩ : PinChain).resolve.start = chain.resolve.start ∧
    Time.StaysWithin chain.base chain.offsets ∧ chain.resolve.start.micros = 0x7FFFFFFFFFFFFFF9 ∧
    let twice : PinChain := chain.push (.relative offset)
    Time.OneWay twice.offsets ∧ twice.resolve.start.micros = 0x7FFFFFFFFFFFFFFF := by
  intro late offset chain
  have within : Time.StaysWithin chain.base chain.offsets := by decide
  have oneWay : Time.OneWay (chain.push (.relative offset)).offsets := by decide
  obtain ⟨pipe, _, _, dropped, _, _, exact⟩ := resolve_of_last_pins chain
  obtain ⟨_, _, _, _, _, cut, _⟩ := resolve_of_last_pins (chain.push (.relative offset))
  exact ⟨pipe, dropped [.relative offset, .wiring "left"] [] late _ rfl, within, exact within, oneWay, (cut oneWay).1⟩

end PinChain

end MediaSession
