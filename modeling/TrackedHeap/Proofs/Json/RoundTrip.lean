import TrackedHeap.Json.Parser
import TrackedHeap.Proofs.Json.Token

/-!
# Written documents are read back

A document in which every name and every leaf has a value that stands in its text (`Written`) is the one that its
text is read as (`parse?_render`). By induction over the document: from any state in which a value may come, the
machine that reads the text of a document is left where the document is delivered (`Written.read_write`).
-/

namespace TrackedHeap.Json

/-- A document that its text determines: it has no floats, and nothing in it is without value. -/
inductive Written : Json → Prop
  | null : Written .null
  | bool (b : Bool) : Written (.bool b)
  | integer {i : Int} (fits : Fits i) : Written (.number (.integer i))
  | string (s : String) : Written (.string s)
  | array {items : List Json} (items_written : ∀ j ∈ items, Written j) : Written (.array items)
  | object {members : List (Option String × Json)} (named : ∀ m ∈ members, m.1.isSome)
    (values_written : ∀ m ∈ members, Written m.2) : Written (.object members)

theorem written_natural {n : Nat} (hn : n < Word.limit) : Written (natural n) :=
  .integer ⟨by omega, by omega⟩

theorem written_record {members : List (String × Json)} (h : ∀ m ∈ members, m.2.Written) :
    (record members).Written :=
  .object (List.forall_mem_map.mpr fun _ _ => rfl) (List.forall_mem_map.mpr h)

/-! ## Reading one token -/

theorem scanToken_of_isSpace {c : Char} (h : isSpace c = true) (cs : List Char) :
    scanToken (c :: cs) = none := by
  have hc : c = ' ' ∨ c = '\n' ∨ c = '\t' ∨ c = '\r' := by
    simpa [isSpace, or_assoc] using h
  rcases hc with rfl | rfl | rfl | rfl <;> rfl

namespace Machine

/-- No token begins with a space, so one that is there is the next to be taken. -/
theorem read_of_scanToken {m : Machine} {cs rest : List Char} (token : Token)
    (h : scanToken cs = some (token, rest)) : m.read cs = (m.step token).bind fun m => m.read rest := by
  cases cs with
  | nil => cases h
  | cons c cs =>
    have hc : isSpace c = false := by
      cases hs : isSpace c with
      | false => rfl
      | true => cases (scanToken_of_isSpace hs cs).symm.trans h
    rw [read.eq_def]
    simp only [hc, Bool.false_eq_true, if_false]
    split
    · next hn => cases hn.symm.trans h
    · next hs =>
      cases hs.symm.trans h
      cases m.step token <;> rfl

/-- A machine in which a value may come, beside which at most the end of an array may. -/
def TakesValue (m : Machine) (stack : List Frame) : Prop :=
  ∀ token ≠ .closeBracket, m.step token = takeValue stack token

theorem takesValue_value (stack : List Frame) : (⟨stack, .value⟩ : Machine).TakesValue stack :=
  fun _ _ => rfl

theorem takesValue_item (stack : List Frame) :
    (⟨stack, .item⟩ : Machine).TakesValue (.array [] :: stack) := by
  intro token h
  cases token with
  | closeBracket => exact absurd rfl h
  | _ => rfl

end Machine

theorem endsNumber_writeItems (items : List Json) (rest : List Char) :
    EndsNumber (writeItems items ++ rest) := by
  intro c hc
  cases items <;> rw [writeItems, List.cons_append, List.head?_cons] at hc <;> cases hc <;> decide

theorem endsNumber_writeMembers (members : List (Option String × Json)) (rest : List Char) :
    EndsNumber (writeMembers members ++ rest) := by
  intro c hc
  cases members <;> rw [writeMembers.eq_def, List.cons_append, List.head?_cons] at hc <;> cases hc <;>
    decide

open Machine

/-- Where a value may come, the text of the document delivers the document, whatever follows. -/
def ReadsBack (j : Json) : Prop :=
  ∀ (m : Machine) (stack : List Frame) (rest : List Char), m.TakesValue stack → EndsNumber rest →
    m.read (j.write ++ rest) = (deliver j stack).read rest

theorem ReadsBack.of_token {j : Json} (token : Token) (hend : token ≠ .closeBracket)
    (hscan : ∀ rest, EndsNumber rest → scanToken (j.write ++ rest) = some (token, rest))
    (htake : ∀ stack, takeValue stack token = some (deliver j stack)) : j.ReadsBack := by
  intro m stack rest hm hr
  rw [read_of_scanToken token (hscan rest hr), hm token hend, htake, Option.bind_some]

/-- The items that are still to come are read behind those that were. -/
theorem read_writeItems {items : List Json} (hitems : ∀ j ∈ items, j.ReadsBack) (seen : List Json)
    (stack : List Frame) (rest : List Char) :
    (⟨stack, .moreItems seen⟩ : Machine).read (writeItems items ++ rest) =
      (deliver (.array (seen.reverse ++ items)) stack).read rest := by
  induction items generalizing seen with
  | nil =>
    rw [writeItems, List.append_nil]
    exact read_of_scanToken .closeBracket rfl
  | cons j items ih =>
    have hcomma : (⟨stack, .moreItems seen⟩ : Machine).read
        (',' :: (j.write ++ (writeItems items ++ rest))) =
          (⟨.array seen :: stack, .value⟩ : Machine).read (j.write ++ (writeItems items ++ rest)) :=
      read_of_scanToken .comma rfl
    rw [writeItems, List.cons_append, List.append_assoc, hcomma,
      hitems j List.mem_cons_self _ _ _ (takesValue_value _) (endsNumber_writeItems items rest)]
    show (⟨stack, .moreItems (j :: seen)⟩ : Machine).read _ = _
    rw [ih (fun i hi => hitems i (List.mem_cons_of_mem _ hi)), List.reverse_cons, List.append_assoc]
    rfl

/-- A name and its value are read where a name may come. -/
theorem read_member {m : Machine} {stack : List Frame} {members : List (Option String × Json)}
    {name : Option String} (hname : name.isSome)
    (hm : ∀ name, m.step (.string name) = some ⟨.object members name :: stack, .colon⟩) {j : Json}
    (hj : j.ReadsBack) {rest : List Char} (hr : EndsNumber rest) :
    m.read (writeName name ++ ':' :: (j.write ++ rest)) =
      (⟨stack, .moreMembers ((name, j) :: members)⟩ : Machine).read rest := by
  obtain ⟨name, rfl⟩ := Option.isSome_iff_exists.mp hname
  have hcolon : (⟨.object members (some name) :: stack, .colon⟩ : Machine).read
      (':' :: (j.write ++ rest)) =
        (⟨.object members (some name) :: stack, .value⟩ : Machine).read (j.write ++ rest) :=
    read_of_scanToken .colon rfl
  rw [writeName, Option.getD_some, read_of_scanToken _ (scanToken_quote _ _), hm, Option.bind_some, hcolon,
    hj _ _ _ (takesValue_value _) hr]
  rfl

/-- The members that are still to come are read behind those that were. -/
theorem read_writeMembers {members : List (Option String × Json)} (hnamed : ∀ m ∈ members, m.1.isSome)
    (hvalues : ∀ m ∈ members, m.2.ReadsBack) (seen : List (Option String × Json)) (stack : List Frame)
    (rest : List Char) :
    (⟨stack, .moreMembers seen⟩ : Machine).read (writeMembers members ++ rest) =
      (deliver (.object (seen.reverse ++ members)) stack).read rest := by
  induction members generalizing seen with
  | nil =>
    rw [writeMembers, List.append_nil]
    exact read_of_scanToken .closeBrace rfl
  | cons member members ih =>
    obtain ⟨name, j⟩ := member
    have hcomma (cs : List Char) : (⟨stack, .moreMembers seen⟩ : Machine).read (',' :: cs) =
        (⟨stack, .name seen⟩ : Machine).read cs :=
      read_of_scanToken .comma rfl
    rw [writeMembers, List.cons_append, List.append_assoc, List.cons_append, List.append_assoc, hcomma,
      read_member (hnamed _ List.mem_cons_self) (fun _ => rfl) (hvalues _ List.mem_cons_self)
        (endsNumber_writeMembers members rest),
      ih (fun m hm => hnamed m (List.mem_cons_of_mem _ hm))
        (fun m hm => hvalues m (List.mem_cons_of_mem _ hm)), List.reverse_cons, List.append_assoc]
    rfl

theorem readsBack_array {items : List Json} (hitems : ∀ j ∈ items, j.ReadsBack) :
    (array items).ReadsBack := by
  intro m stack rest hm _
  have hopen (cs : List Char) : m.read ('[' :: cs) = (⟨stack, .item⟩ : Machine).read cs := by
    rw [read_of_scanToken .openBracket rfl, hm _ (by simp)]
    rfl
  cases items with
  | nil =>
    rw [write, List.cons_append, hopen]
    exact read_of_scanToken .closeBracket rfl
  | cons j items =>
    rw [write, List.cons_append, List.append_assoc, hopen,
      hitems j List.mem_cons_self _ _ _ (takesValue_item _) (endsNumber_writeItems items rest)]
    exact read_writeItems (fun i hi => hitems i (List.mem_cons_of_mem _ hi)) [j] stack rest

theorem readsBack_object {members : List (Option String × Json)} (hnamed : ∀ m ∈ members, m.1.isSome)
    (hvalues : ∀ m ∈ members, m.2.ReadsBack) : (object members).ReadsBack := by
  intro m stack rest hm _
  have hopen (cs : List Char) : m.read ('{' :: cs) = (⟨stack, .member⟩ : Machine).read cs := by
    rw [read_of_scanToken .openBrace rfl, hm _ (by simp)]
    rfl
  cases members with
  | nil =>
    rw [write, List.cons_append, hopen]
    exact read_of_scanToken .closeBrace rfl
  | cons member members =>
    obtain ⟨name, j⟩ := member
    rw [write, List.cons_append, List.append_assoc, List.cons_append, List.append_assoc, hopen,
      read_member (m := ⟨stack, .member⟩) (hnamed _ List.mem_cons_self) (fun _ => rfl)
        (hvalues _ List.mem_cons_self) (endsNumber_writeMembers members rest)]
    exact read_writeMembers (fun m hm => hnamed m (List.mem_cons_of_mem _ hm))
      (fun m hm => hvalues m (List.mem_cons_of_mem _ hm)) [(name, j)] stack rest

theorem Written.readsBack {j : Json} (h : j.Written) : j.ReadsBack := by
  induction h with
  | null => exact .of_token .null (by simp) (fun _ _ => rfl) fun _ => rfl
  | bool b => cases b <;> exact .of_token (.bool _) (by simp) (fun _ _ => rfl) fun _ => rfl
  | integer fits =>
    exact .of_token _ (by simp) (fun _ hr => scanToken_writeInteger fits hr) fun _ => rfl
  | string s => exact .of_token _ (by simp) (fun _ _ => scanToken_quote s _) fun _ => rfl
  | array _ ih => exact readsBack_array ih
  | object named _ ih => exact readsBack_object named ih

/-- A written document is the one that its text is read as. -/
theorem parse?_render {j : Json} (h : j.Written) : parse? j.render = some j := by
  have hread := h.readsBack Machine.start [] [] (takesValue_value []) (by simp [EndsNumber])
  rw [List.append_nil, deliver, Machine.read] at hread
  rw [parse?, render, String.toList_ofList, hread]
  rfl

end TrackedHeap.Json
