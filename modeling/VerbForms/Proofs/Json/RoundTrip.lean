import VerbForms.Proofs.Json.Position
import VerbForms.Proofs.Json.Reading

/-!
# What is printed is read back

Reading the text of a value gives the value back, in every layout. Required are distinct keys in every
object, integers with no more digits than reading accepts, and of the doubles that reading the text of
each one on its own gives that double back.
-/

namespace VerbForms.Json

variable {state : ReadState} {rest : List Char} {opened : List Open}

/-- Reading the text of a double gives the double back. -/
def KeepsDouble (x : Double) : Prop := readChars (doubleText numberForm x) = .ok (.real x)

/-- Whether reading the text of a double gives the double back. -/
def keepsDouble (x : Double) : Bool :=
  match readChars (doubleText numberForm x) with
  | .ok (.real y) => y = x
  | _ => false

theorem keepsDouble_iff (x : Double) : keepsDouble x = true ↔ KeepsDouble x := by
  rw [keepsDouble, KeepsDouble]
  split
  · next y same => simp [same]
  · next other =>
    simp only [Bool.false_eq_true, false_iff]
    exact fun same ↦ other x same

instance (x : Double) : Decidable (KeepsDouble x) := decidable_of_iff _ (keepsDouble_iff x)

mutual

/-- The value can be stored as text: its keys are distinct, its integers have no more digits than
reading accepts, and its finite doubles are kept. -/
def Storable : Json → Prop
  | .int n => (naturalText n.natAbs).length ≤ mostIntegerDigits
  | .real (.finite negative m e) => KeepsDouble (.finite negative m e)
  | .array items => StorableItems items
  | .object members => (Assoc.keys members).Nodup ∧ StorableMembers members
  | _ => True

/-- The items can be stored as text. -/
def StorableItems : List Json → Prop
  | [] => True
  | item :: rest => Storable item ∧ StorableItems rest

/-- The members' values can be stored as text. -/
def StorableMembers : Members → Prop
  | [] => True
  | (_, value) :: rest => Storable value ∧ StorableMembers rest

end

/-! ### Layouts -/

theorem leads_lineBreak (layout : Layout) (depth : Nat) (state : ReadState) (rest : List Char) :
    Leads state (layout.lineBreak depth ++ rest) state rest := by
  apply leads_separators
  cases layout with
  | line => exact List.forall_mem_nil _
  | block width =>
    rw [Layout.lineBreak, List.forall_mem_cons]
    refine ⟨rfl, fun c mem ↦ ?_⟩
    rw [List.eq_of_mem_replicate mem]
    rfl

theorem bounded_lineBreak (layout : Layout) (depth : Nat) {c : Char} (h : c ∈ boundaries)
    (rest : List Char) : Bounded (layout.lineBreak depth ++ c :: rest) := by
  cases layout with
  | line => exact bounded_cons h rest
  | block width => exact bounded_cons (by decide) _

/-- A comma is read with the blanks behind it. -/
theorem leads_between (layout : Layout) (depth : Nat) {next : ReadState} (rest : List Char)
    (step : ∀ position, readStep position .comma state = .ok next) :
    Leads state (layout.between depth ++ rest) next rest := by
  have comma (tail : List Char) : Leads state (',' :: tail) next tail :=
    leads_char rfl (fun _ ↦ rfl) step
  cases layout with
  | line => exact (comma (' ' :: rest)).trans (leads_blank next rest)
  | block width => exact (comma _).trans (leads_lineBreak (.block width) depth next rest)

theorem bounded_between (layout : Layout) (depth : Nat) (rest : List Char) :
    Bounded (layout.between depth ++ rest) := by
  cases layout with
  | line => exact bounded_cons (by decide) _
  | block width => exact bounded_cons (by decide) _

theorem bounded_printItems (layout : Layout) (depth : Nat) (items : List Json)
    (bounded : Bounded rest) : Bounded (printItems layout depth items ++ rest) := by
  cases items with
  | nil => exact bounded
  | cons item items =>
    rw [printItems, List.append_assoc, List.append_assoc]
    exact bounded_between layout depth _

theorem bounded_printMembers (layout : Layout) (depth : Nat) (members : Members)
    (bounded : Bounded rest) : Bounded (printMembers layout depth members ++ rest) := by
  cases members with
  | nil => exact bounded
  | cons entry members =>
    rw [printMembers, List.append_assoc, List.append_assoc, List.append_assoc]
    exact bounded_between layout depth _

/-! ### Values without parts -/

theorem leads_word {c : Char} {cs : List Char} {value : Json} (start : StartsAtom c)
    (scan : scanAtom c cs = some (.atom value, cs.length + 1)) (expects : Expects state opened)
    (bounded : Bounded rest) : Leads state (c :: cs ++ rest) (deliver value opened) rest := by
  apply leads_atom start scan _ expects bounded
  rw [Nat.add_sub_cancel, List.drop_length]
  exact List.forall_mem_nil _

theorem leads_integerText {n : Int} (digits : (naturalText n.natAbs).length ≤ mostIntegerDigits)
    (expects : Expects state opened) (bounded : Bounded rest) :
    Leads state (integerText n ++ rest) (deliver (.int n) opened) rest := by
  obtain ⟨c, cs, text, start, scan⟩ := exists_scanAtom_integerText digits
  rw [text]
  exact leads_word start scan expects bounded

theorem leads_doubleText {x : Double} (storable : Storable (.real x))
    (expects : Expects state opened) (bounded : Bounded rest) :
    Leads state (doubleText numberForm x ++ rest) (deliver (.real x) opened) rest := by
  cases x with
  | nan => exact leads_word (by decide) rfl expects bounded
  | infinity negative =>
    cases negative with
    | true => exact leads_word (by decide) rfl expects bounded
    | false => exact leads_word (by decide) rfl expects bounded
  | finite negative m e =>
    have keeps : KeepsDouble (.finite negative m e) := storable
    obtain ⟨c, cs, text, start⟩ := exists_doubleText numberForm negative m e
    rw [KeepsDouble, text] at keeps
    obtain ⟨length, scan, blanks⟩ := exists_scanAtom_of_readChars start keeps
    rw [text]
    exact leads_atom start scan blanks expects bounded

/-! ### Values with parts -/

theorem leads_openArray (expects : Expects state opened) (rest : List Char) :
    Leads state ('[' :: rest) (.firstItem opened) rest :=
  leads_char rfl (fun _ ↦ rfl) (expects.readStep (by simp))

theorem leads_openObject (expects : Expects state opened) (rest : List Char) :
    Leads state ('{' :: rest) (.firstKey opened) rest :=
  leads_char rfl (fun _ ↦ rfl) (expects.readStep (by simp))

/-- A key is read with the colon and the blank behind it. -/
theorem leads_key {done : Members} {key : String} (rest : List Char)
    (step : ∀ position, readStep position (.text key) state = .ok (.colon done key opened)) :
    Leads state (quotedText key.toList ++ ':' :: ' ' :: rest) (.value (.members done key :: opened))
      rest := by
  have text : Leads state (quotedText key.toList ++ ':' :: ' ' :: rest) (.colon done key opened)
      (':' :: ' ' :: rest) := by
    apply leads_quotedText
    rw [String.ofList_toList]
    exact step
  have colon : Leads (.colon done key opened) (':' :: ' ' :: rest)
      (.value (.members done key :: opened)) (' ' :: rest) :=
    leads_char rfl (fun _ ↦ rfl) fun _ ↦ rfl
  exact (text.trans colon).trans (leads_blank _ rest)

mutual

/-- The text of a value is read as the value. -/
theorem leads_printAt (layout : Layout) (depth : Nat) {state : ReadState} {opened : List Open}
    {rest : List Char} (expects : Expects state opened) (bounded : Bounded rest) :
    ∀ {value : Json}, value.Storable →
      Leads state (printAt layout depth value ++ rest) (deliver value opened) rest
  | .null, _ => leads_word (by decide) rfl expects bounded
  | .bool true, _ => leads_word (by decide) rfl expects bounded
  | .bool false, _ => leads_word (by decide) rfl expects bounded
  | .int n, storable => leads_integerText storable expects bounded
  | .real x, storable => leads_doubleText storable expects bounded
  | .text s, _ => by
    rw [printAt]
    apply leads_quotedText
    rw [String.ofList_toList]
    exact expects.readStep (by simp)
  | .array [], _ => by
    have close : Leads (.firstItem opened) (']' :: rest) (deliver (.array []) opened) rest :=
      leads_char rfl (fun _ ↦ rfl) fun _ ↦ rfl
    exact (leads_openArray expects _).trans close
  | .array (item :: items), ⟨storable, others⟩ => by
    have text : printAt layout depth (.array (item :: items)) ++ rest =
        '[' :: (layout.lineBreak (depth + 1) ++ (printAt layout (depth + 1) item ++
          (printItems layout (depth + 1) items ++ (layout.lineBreak depth ++ ']' :: rest)))) := by
      simp [printAt]
    have bracket := bounded_lineBreak layout depth (by decide : ']' ∈ boundaries) rest
    have first := leads_printAt layout (depth + 1) (.firstItem opened)
      (bounded_printItems layout (depth + 1) items bracket) storable
    have further : Leads (.afterItem [item] opened) _ (.afterItem (items.reverse ++ [item]) opened) _ :=
      leads_printItems layout (depth + 1) bracket others
    have close : Leads (.afterItem (items.reverse ++ [item]) opened) (']' :: rest)
        (deliver (.array (item :: items)) opened) rest := by
      have all : (items.reverse ++ [item]).reverse = item :: items := by simp
      rw [← all]
      exact leads_char rfl (fun _ ↦ rfl) fun _ ↦ rfl
    -- The first item is read behind the bracket, each of the others behind a comma.
    rw [text]
    apply (leads_openArray expects _).trans
    apply (leads_lineBreak layout (depth + 1) _ _).trans
    apply first.trans
    apply further.trans
    exact (leads_lineBreak layout depth _ _).trans close
  | .object [], _ => by
    have close : Leads (.firstKey opened) ('}' :: rest) (deliver (.object []) opened) rest :=
      leads_char rfl (fun _ ↦ rfl) fun _ ↦ rfl
    exact (leads_openObject expects _).trans close
  | .object ((key, value) :: members), ⟨distinct, storable, others⟩ => by
    have text : printAt layout depth (.object ((key, value) :: members)) ++ rest =
        '{' :: (layout.lineBreak (depth + 1) ++ (quotedText key.toList ++ ':' :: ' ' ::
          (printAt layout (depth + 1) value ++ (printMembers layout (depth + 1) members ++
            (layout.lineBreak depth ++ '}' :: rest))))) := by
      simp [printAt]
    have bracket := bounded_lineBreak layout depth (by decide : '}' ∈ boundaries) rest
    have first := leads_printAt layout (depth + 1) (.value (.members [] key :: opened))
      (bounded_printMembers layout (depth + 1) members bracket) storable
    have further : Leads (.afterMember [(key, value)] opened) _
        (.afterMember ((key, value) :: members) opened) _ :=
      leads_printMembers layout (depth + 1) bracket distinct others
    have close : Leads (.afterMember ((key, value) :: members) opened) ('}' :: rest)
        (deliver (.object ((key, value) :: members)) opened) rest :=
      leads_char rfl (fun _ ↦ rfl) fun _ ↦ rfl
    rw [text]
    apply (leads_openObject expects _).trans
    apply (leads_lineBreak layout (depth + 1) _ _).trans
    apply (leads_key _ fun _ ↦ rfl).trans
    apply first.trans
    apply further.trans
    exact (leads_lineBreak layout depth _ _).trans close

/-- The texts of further items are read as the items. -/
theorem leads_printItems (layout : Layout) (depth : Nat) {opened : List Open} {rest : List Char}
    (bounded : Bounded rest) :
    ∀ {items done : List Json}, StorableItems items →
      Leads (.afterItem done opened) (printItems layout depth items ++ rest)
        (.afterItem (items.reverse ++ done) opened) rest
  | [], done, _ => Leads.refl _ rest
  | item :: items, done, ⟨storable, others⟩ => by
    have text : printItems layout depth (item :: items) ++ rest =
        layout.between depth ++ (printAt layout depth item ++
          (printItems layout depth items ++ rest)) := by
      simp [printItems]
    have first := leads_printAt layout depth (.value (.items done :: opened))
      (bounded_printItems layout depth items bounded) storable
    have further : Leads (.afterItem (item :: done) opened) _
        (.afterItem (items.reverse ++ item :: done) opened) _ :=
      leads_printItems layout depth bounded others
    rw [text, List.reverse_cons, List.append_assoc]
    apply (leads_between layout depth _ fun _ ↦ rfl).trans
    exact first.trans further

/-- The texts of further members are read as the members. -/
theorem leads_printMembers (layout : Layout) (depth : Nat) {opened : List Open} {rest : List Char}
    (bounded : Bounded rest) :
    ∀ {members done : Members}, (Assoc.keys (done ++ members)).Nodup → StorableMembers members →
      Leads (.afterMember done opened) (printMembers layout depth members ++ rest)
        (.afterMember (done ++ members) opened) rest
  | [], done, _, _ => by
    rw [List.append_nil]
    exact Leads.refl _ rest
  | (key, value) :: members, done, distinct, ⟨storable, others⟩ => by
    have text : printMembers layout depth ((key, value) :: members) ++ rest =
        layout.between depth ++ (quotedText key.toList ++ ':' :: ' ' ::
          (printAt layout depth value ++ (printMembers layout depth members ++ rest))) := by
      simp [printMembers]
    have order : done ++ (key, value) :: members = done ++ [(key, value)] ++ members := by simp
    -- Keys are distinct, so the member is added at the end and replaces none.
    have fresh : key ∉ Assoc.keys done := by
      intro mem
      rw [Assoc.keys, List.map_append] at distinct
      exact List.disjoint_of_nodup_append distinct mem List.mem_cons_self
    have first := leads_printAt layout depth (.value (.members done key :: opened))
      (bounded_printMembers layout depth members bounded) storable
    rw [deliver, Assoc.put_of_not_mem fresh] at first
    rw [order] at distinct ⊢
    rw [text]
    apply (leads_between layout depth _ fun _ ↦ rfl).trans
    apply (leads_key _ fun _ ↦ rfl).trans
    exact first.trans (leads_printMembers layout depth bounded distinct others)

end

/-- **What is printed is read back**, in every layout. -/
theorem read_print (layout : Layout) {value : Json} (storable : value.Storable) :
    read (print layout value) = .ok value := by
  obtain ⟨position, same⟩ := leads_printAt layout 0 (.value []) bounded_nil storable 0
  rw [List.append_nil] at same
  rw [read, print, String.toList_ofList, readChars, tokens, same]
  rfl

/-- Different values have different texts. -/
theorem print_inj (layout : Layout) {value other : Json} (storable : value.Storable)
    (storable' : other.Storable)
    (same : print layout value = print layout other) : value = other := by
  have read := read_print layout storable
  rw [same, read_print layout storable'] at read
  exact (Except.ok.inj read).symm

end VerbForms.Json
