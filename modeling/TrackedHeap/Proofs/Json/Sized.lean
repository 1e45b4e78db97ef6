import TrackedHeap.Json.Parser
import TrackedHeap.Proofs.Json.Token

/-!
# Numbers of documents

Whatever text a document is read from, its integers are words or the negatives of at most half a word
(`sized_of_parse?`). Every token that is scanned has only such an integer, and the machine keeps that of what it
holds.
-/

namespace TrackedHeap.Json

/-- A document all of whose integers can be read as such. -/
inductive Sized : Json → Prop
  | null : Sized .null
  | bool (b : Bool) : Sized (.bool b)
  | integer {i : Int} (fits : Fits i) : Sized (.number (.integer i))
  | real (x : Float) : Sized (.number (.real x))
  | string (s : String) : Sized (.string s)
  | unreadable : Sized .unreadable
  | array {items : List Json} (items_sized : ∀ j ∈ items, Sized j) : Sized (.array items)
  | object {members : List (Option String × Json)} (values_sized : ∀ m ∈ members, Sized m.2) :
    Sized (.object members)

namespace Sized

theorem fits {i : Int} (h : Sized (.number (.integer i))) : Fits i := by
  cases h with
  | integer fits => exact fits

theorem items {items : List Json} (h : Sized (.array items)) : ∀ j ∈ items, Sized j := by
  cases h with
  | array items_sized => exact items_sized

theorem values {members : List (Option String × Json)} (h : Sized (.object members)) :
    ∀ m ∈ members, Sized m.2 := by
  cases h with
  | object values_sized => exact values_sized

end Sized

/-! ## Tokens -/

/-- A token whose integer, if it has one, can be read as such. -/
def Token.Sized : Token → Prop
  | .number (some (.integer i)) => Fits i
  | _ => True

theorem fits_of_integer? {l : Literal} {i : Int} (h : l.integer? = some i) : Fits i := by
  unfold Literal.integer? at h
  unfold Fits
  split at h
  · cases h
  · dsimp only at h
    split at h <;> split at h <;> cases h <;> omega

theorem sized_number (l : Literal) : (Token.number l.value?).Sized := by
  unfold Literal.value?
  split
  · next h => exact fits_of_integer? h
  · cases l.magnitude? <;> trivial

theorem sized_of_scanToken {cs rest : List Char} {token : Token}
    (h : scanToken cs = some (token, rest)) : token.Sized := by
  revert h
  fun_cases scanToken cs
  case case11 =>
    intro h
    obtain ⟨⟨l, _⟩, _, hl⟩ := Option.map_eq_some_iff.mp h
    cases hl
    exact sized_number l
  all_goals
    intro h
    simp only [Option.some.injEq, Option.map_eq_some_iff, Prod.mk.injEq] at h
    grind [Token.Sized]

/-! ## The machine -/

/-- An open container of sized documents. -/
def Frame.Sized : Frame → Prop
  | .array items => ∀ j ∈ items, j.Sized
  | .object members _ => ∀ m ∈ members, m.2.Sized

/-- What is kept beside the open containers is sized. -/
def Expecting.Sized : Expecting → Prop
  | .moreItems items => ∀ j ∈ items, j.Sized
  | .name members | .moreMembers members => ∀ m ∈ members, m.2.Sized
  | .nothing document => document.Sized
  | _ => True

namespace Machine

/-- All that the machine holds is sized. -/
structure Sized (m : Machine) : Prop where
  stack : ∀ frame ∈ m.stack, frame.Sized
  expecting : m.expecting.Sized

theorem sized_deliver {j : Json} (hj : j.Sized) {stack : List Frame}
    (hstack : ∀ frame ∈ stack, frame.Sized) : (deliver j stack).Sized := by
  rcases stack with _ | ⟨frame, stack⟩
  · exact ⟨hstack, hj⟩
  · obtain ⟨hframe, hrest⟩ := List.forall_mem_cons.mp hstack
    cases frame with
    | array items => exact ⟨hrest, List.forall_mem_cons.mpr ⟨hj, hframe⟩⟩
    | object members name => exact ⟨hrest, List.forall_mem_cons.mpr ⟨hj, hframe⟩⟩

theorem sized_takeValue {stack : List Frame} (hstack : ∀ frame ∈ stack, frame.Sized) {token : Token}
    (ht : token.Sized) {m : Machine} (h : takeValue stack token = some m) : m.Sized := by
  revert h
  fun_cases takeValue stack token <;> intro h <;> cases h
  case case3 n =>
    cases n with
    | integer i => exact sized_deliver (.integer ht) hstack
    | real x => exact sized_deliver (.real x) hstack
  case case7 => exact ⟨hstack, trivial⟩
  case case8 => exact ⟨hstack, trivial⟩
  all_goals exact sized_deliver (by constructor) hstack

theorem Sized.step {m m' : Machine} (hm : m.Sized) {token : Token} (ht : token.Sized)
    (h : m.step token = some m') : m'.Sized := by
  have hpush {frame : Frame} (hframe : frame.Sized) : ∀ f ∈ frame :: m.stack, f.Sized :=
    List.forall_mem_cons.mpr ⟨hframe, hm.stack⟩
  have hnil : (Frame.array []).Sized := fun _ hj => absurd hj List.not_mem_nil
  have hnone (name : Option String) : (Frame.object [] name).Sized := fun _ hj =>
    absurd hj List.not_mem_nil
  have hkept := hm.expecting
  revert h
  fun_cases Machine.step m token <;> intro h
  case case1 => exact sized_takeValue hm.stack ht h
  case case3 => exact sized_takeValue (hpush hnil) ht h
  all_goals
    try rw [‹m.expecting = _›] at hkept
    cases h
  case case2 => exact sized_deliver (.array hnil) hm.stack
  case case4 => exact sized_deliver (.object (hnone none)) hm.stack
  case case5 name _ => exact ⟨hpush (hnone name), trivial⟩
  case case6 => exact ⟨hpush hkept, trivial⟩
  case case7 => exact ⟨hm.stack, trivial⟩
  case case8 => exact ⟨hpush hkept, trivial⟩
  case case9 => exact sized_deliver (.array fun j hj => hkept j (List.mem_reverse.mp hj)) hm.stack
  case case10 => exact ⟨hm.stack, hkept⟩
  case case11 => exact sized_deliver (.object fun m hm => hkept m (List.mem_reverse.mp hm)) hm.stack

theorem Sized.read {m m' : Machine} (hm : m.Sized) {cs : List Char} (h : m.read cs = some m') :
    m'.Sized := by
  fun_induction Machine.read m cs with
  | case1 m => exact Option.some.inj h ▸ hm
  | case2 m c rest _ ih => exact ih hm h
  | case3 => cases h
  | case4 => cases h
  | case5 m c rest _ token rest' hscan m₁ hstep ih => exact ih (hm.step (sized_of_scanToken hscan) hstep) h

end Machine

/-- The integers of a document that was read can be read as such. -/
theorem sized_of_parse? {text : String} {j : Json} (h : parse? text = some j) : j.Sized := by
  obtain ⟨m, hread, hdocument⟩ := Option.bind_eq_some_iff.mp h
  have hstart : Machine.start.Sized := ⟨fun _ hf => absurd hf List.not_mem_nil, trivial⟩
  have hm := hstart.read hread
  have hkept := hm.expecting
  unfold Machine.document? at hdocument
  split at hdocument
  · next he =>
    rw [he] at hkept
    exact Option.some.inj hdocument ▸ hkept
  · cases hdocument

end TrackedHeap.Json
