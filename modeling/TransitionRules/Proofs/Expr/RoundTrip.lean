/-
TransitionRules/Proofs/Expr/RoundTrip.lean

Expressions as data and back.  The data of an expression names its kind, so that reading it takes the
branch that writing took, and holds the data of its parts, which by induction are read as the parts.
So an expression comes back from being data, whatever it is made of, and two expressions with the same
data are the same.

There are two places where data alone does not tell kinds apart.  A double that is not finite is
written as null, which no double is read from; this is what `HasFiniteFloats` excludes.  And null stands
for a missing patch, which is no loss because no expression is written as null (`isNull_encode`).

Main result: `decode_encode`.
-/
import TransitionRules.Expr.Encoding
import TransitionRules.Proofs.Expr.Parts

namespace TransitionRules

/-! ### Operators -/

theorem UnaryOp.ofTag?_tag (op : UnaryOp) : ofTag? op.tag = some op := by
  cases op <;> rfl

theorem BinaryOp.ofTag?_tag (op : BinaryOp) : ofTag? op.tag = some op := by
  cases op <;> rfl

namespace Expr

/-! ### Doubles inside an expression -/

/-- Every double in the expression is finite, the expression standing in some position. -/
def HasFiniteFloats (position : Position) (e : Expr) : Prop :=
  ∀ position' x, Occurs position e position' (.float x) → x.isFinite = true

theorem HasFiniteFloats.part {position : Position} {e : Expr} {part : Part}
    (h : e.HasFiniteFloats position) (hpart : part ∈ e.parts position) :
    part.expression.HasFiniteFloats part.position := by
  intro position' x hinner
  exact h position' x (.inside hpart hinner)

theorem HasFiniteFloats.of_parts {position : Position} {e : Expr}
    (hfloat : ∀ x, e = .float x → x.isFinite = true)
    (hparts : ∀ part ∈ e.parts position, part.expression.HasFiniteFloats part.position) :
    e.HasFiniteFloats position := by
  intro position' x hinner
  cases hinner with
  | here => exact hfloat x rfl
  | inside hpart hinner => exact hparts _ hpart position' x hinner

/-! ### Leaves -/

theorem word?_wordNumber (n : Int64) : word? (wordNumber n) = some n := by
  have hhigh : n.toInt < 0x8000000000000000 := Int64.toInt_lt n
  rw [wordNumber, word?, if_pos hhigh, Int64.ofInt_toInt]

theorem floatData_of_isFinite {x : Float} (h : x.isFinite = true) :
    floatData x = .number (.float x h) := by
  rw [floatData, Number.ofFloat?, dif_pos h]

/-- No expression is written as null. -/
theorem isNull_encode (e : Expr) : e.encode.sorted.isNull = false := by
  cases e with
  | assign rules patch => cases patch <;> rfl
  | _ => rfl

/-! ### Lists of expressions -/

open OrderedJson (sortedItems)

variable {items : List Expr} {entries : List (String × Expr)} {rules : List (Expr × Expr)}
variable {patch : Option Expr}

theorem decodeItems?_encodeItems (h : ∀ item ∈ items, decode? item.encode.sorted = some item) :
    decodeItems? (sortedItems (encodeItems items)) = some items := by
  induction items with
  | nil => rfl
  | cons item rest ih =>
    rw [List.forall_mem_cons] at h
    show (do
      let item ← decode? item.encode.sorted
      let rest ← decodeItems? (sortedItems (encodeItems rest))
      some (item :: rest)) = _
    rw [h.1, ih h.2]
    rfl

theorem decodeEntries?_encodeEntries
    (h : ∀ entry ∈ entries, decode? entry.2.encode.sorted = some entry.2) :
    decodeEntries? (sortedItems (encodeEntries entries)) = some entries := by
  induction entries with
  | nil => rfl
  | cons entry rest ih =>
    rw [List.forall_mem_cons] at h
    show (do
      let value ← decode? entry.2.encode.sorted
      let rest ← decodeEntries? (sortedItems (encodeEntries rest))
      some ((entry.1, value) :: rest)) = _
    rw [h.1, ih h.2]
    rfl

theorem decodeRules?_encodeRules
    (h : ∀ rule ∈ rules, decode? rule.1.encode.sorted = some rule.1 ∧
      decode? rule.2.encode.sorted = some rule.2) :
    decodeRules? (sortedItems (encodeRules rules)) = some rules := by
  induction rules with
  | nil => rfl
  | cons rule rest ih =>
    rw [List.forall_mem_cons] at h
    show (do
      let condition ← decode? rule.1.encode.sorted
      let transform ← decode? rule.2.encode.sorted
      let rest ← decodeRules? (sortedItems (encodeRules rest))
      some ((condition, transform) :: rest)) = _
    rw [h.1.1, h.1.2, ih h.2]
    rfl

/-! ### Assignments -/

/-- The patch of an assignment as data. -/
def patchData : Option Expr → Json
  | none => .null
  | some patch => patch.encode.sorted

/-- An assignment as data lists its patch before its rules, in the order of the names. -/
theorem sorted_encode_assign (rules : List (Expr × Expr)) (patch : Option Expr) :
    (Expr.assign rules patch).encode.sorted =
      .object (.cons "Assign" (after_none _) (.object
        (.cons "patch" (after_none _) (patchData patch)
          (.cons "rules" (by decide) (.array (sortedItems (encodeRules rules))) .nil))) .nil) := by
  cases patch <;> rfl

/-- The patch does not stand in for the rules, whatever its data is. -/
theorem decodeRulesField?_patch {after : After none "patch"} (data : Json)
    (rest : FieldsAfter Json (some "patch")) :
    decodeRulesField? (.cons "patch" after data rest) = decodeRulesField? rest := by
  cases data <;> rfl

theorem decodePatchField?_patchData {after : After none "patch"}
    (rest : FieldsAfter Json (some "patch"))
    (h : ∀ change ∈ patch, decode? change.encode.sorted = some change) :
    decodePatchField? (.cons "patch" after (patchData patch) rest) = some patch := by
  cases patch with
  | none => rfl
  | some change =>
    show (if change.encode.sorted.isNull then some none
      else (decode? change.encode.sorted).map some) = _
    rw [isNull_encode, h change rfl]
    rfl

/-! ### Expressions -/

/-- An expression with finite doubles comes back from being data. -/
theorem decode?_encode {position : Position} {e : Expr} (h : e.HasFiniteFloats position) :
    decode? e.encode.sorted = some e := by
  -- in each case the name of the kind leaves one way of reading, which reads the parts in turn
  induction e generalizing position with
  | null => rfl
  | bool b => rfl
  | int n =>
    show ((word? (wordNumber n)).map Expr.int).or none = _
    rw [word?_wordNumber]
    rfl
  | float x =>
    have hfinite : x.isFinite = true := h position x .here
    show (decodeLeaf? "Float" (floatData x)).or (decodeParts? "Float" (floatData x)) = _
    rw [floatData_of_isFinite hfinite]
    rfl
  | string s => rfl
  | list items ih =>
    have hitems := decodeItems?_encodeItems fun item hitem =>
      ih item hitem (h.part (List.mem_map_of_mem hitem))
    show (decodeItems? (sortedItems (encodeItems items))).map Expr.list = _
    rw [hitems]
    rfl
  | map entries ih =>
    have hentries := decodeEntries?_encodeEntries fun entry hentry =>
      ih entry hentry (h.part (List.mem_map_of_mem hentry))
    show (decodeEntries? (sortedItems (encodeEntries entries))).map Expr.map = _
    rw [hentries]
    rfl
  | ident name => rfl
  | field base name ih =>
    have hbase := ih (h.part (List.mem_singleton_self _))
    show (decode? base.encode.sorted).map (fun base => Expr.field base name) = _
    rw [hbase]
    rfl
  | index base key ihbase ihkey =>
    have hbase := ihbase (h.part (.head _))
    have hkey := ihkey (h.part (.tail _ (.head _)))
    show (do
      let base ← decode? base.encode.sorted
      let key ← decode? key.encode.sorted
      some (Expr.index base key)) = _
    rw [hbase, hkey]
    rfl
  | unary op operand ih =>
    have hoperand := ih (h.part (List.mem_singleton_self _))
    show (do
      let op ← UnaryOp.ofTag? op.tag
      let operand ← decode? operand.encode.sorted
      some (Expr.unary op operand)) = _
    rw [UnaryOp.ofTag?_tag, hoperand]
    rfl
  | binary op left right ihleft ihright =>
    have hleft := ihleft (h.part (.head _))
    have hright := ihright (h.part (.tail _ (.head _)))
    show (do
      let op ← BinaryOp.ofTag? op.tag
      let left ← decode? left.encode.sorted
      let right ← decode? right.encode.sorted
      some (Expr.binary op left right)) = _
    rw [BinaryOp.ofTag?_tag, hleft, hright]
    rfl
  | conditional test yes no ihtest ihyes ihno =>
    have htest := ihtest (h.part (.head _))
    have hyes := ihyes (h.part (.tail _ (.head _)))
    have hno := ihno (h.part (.tail _ (.tail _ (.head _))))
    show (do
      let test ← decode? test.encode.sorted
      let yes ← decode? yes.encode.sorted
      let no ← decode? no.encode.sorted
      some (Expr.conditional test yes no)) = _
    rw [htest, hyes, hno]
    rfl
  | call function arguments ih =>
    have harguments := decodeItems?_encodeItems fun argument hargument =>
      ih argument hargument (h.part (List.mem_map_of_mem hargument))
    show (decodeItems? (sortedItems (encodeItems arguments))).map
      (fun arguments => Expr.call function arguments) = _
    rw [harguments]
    rfl
  | all operands ih =>
    have hoperands := decodeItems?_encodeItems fun operand hoperand =>
      ih operand hoperand (h.part (List.mem_map_of_mem hoperand))
    show (decodeItems? (sortedItems (encodeItems operands))).map Expr.all = _
    rw [hoperands]
    rfl
  | any operands ih =>
    have hoperands := decodeItems?_encodeItems fun operand hoperand =>
      ih operand hoperand (h.part (List.mem_map_of_mem hoperand))
    show (decodeItems? (sortedItems (encodeItems operands))).map Expr.any = _
    rw [hoperands]
    rfl
  | assign rules patch ihrules ihpatch =>
    have hrules : ∀ rule ∈ rules, decode? rule.1.encode.sorted = some rule.1 ∧
        decode? rule.2.encode.sorted = some rule.2 := by
      intro rule hrule
      obtain ⟨hcondition, htransform⟩ := ihrules rule hrule
      exact ⟨hcondition (h.part (condition_mem_parts hrule)),
        htransform (h.part (transform_mem_parts hrule))⟩
    have hpatch : ∀ change ∈ patch, decode? change.encode.sorted = some change :=
      fun change hchange => ihpatch change hchange (h.part (patch_mem_parts hchange))
    -- both fields are found by their names, though the patch has come to stand first
    rw [sorted_encode_assign]
    show (do
      let rules ← decodeRulesField? _
      let patch ← decodePatchField? _
      some (Expr.assign rules patch)) = _
    rw [decodeRulesField?_patch, decodePatchField?_patchData _ hpatch]
    show (do
      let rules ← decodeRules? (sortedItems (encodeRules rules))
      some (Expr.assign rules patch)) = _
    rw [decodeRules?_encodeRules hrules]
    rfl

/-- **Decoding undoes encoding.**  An expression whose doubles are finite, of whatever kinds and at
whatever depth, is read back from its data as it was; so no other such expression has the same data. -/
theorem decode_encode {e : Expr} (h : e.HasFiniteFloats .value) :
    decode e.encode.sorted = .ok e ∧
      ∀ e' : Expr, e'.HasFiniteFloats .value → e'.encode.sorted = e.encode.sorted → e' = e := by
  have hback := decode?_encode h
  refine ⟨?_, ?_⟩
  · rw [decode, hback]
  · intro e' h' hsame
    have hback' := decode?_encode h'
    rw [hsame, hback] at hback'
    exact (Option.some.inj hback').symm

/-- The integer and the double one under the same key, beside rules without a patch. -/
def ones : Expr :=
  .map [("one", .int 1), ("one", .float 1.0), ("run", .assign [(.bool true, .null)] none)]

theorem hasFiniteFloats_ones : ones.HasFiniteFloats .value := by
  have hint : (Expr.int 1).HasFiniteFloats .value :=
    .of_parts (fun _ h => nomatch h) (List.forall_mem_nil _)
  have hfloat : (Expr.float 1.0).HasFiniteFloats .value := by
    refine .of_parts (fun x h => ?_) (List.forall_mem_nil _)
    obtain rfl := Expr.float.inj h
    rfl
  have hassign : (Expr.assign [(.bool true, .null)] none).HasFiniteFloats .value := by
    refine .of_parts (fun _ h => nomatch h) ?_
    show ∀ part ∈ [(⟨.test, .bool true, .condition⟩ : Part), ⟨.value, .null, .transform⟩], _
    rw [List.forall_mem_cons, List.forall_mem_cons]
    exact ⟨.of_parts (fun _ h => nomatch h) (List.forall_mem_nil _),
      .of_parts (fun _ h => nomatch h) (List.forall_mem_nil _), List.forall_mem_nil _⟩
  refine .of_parts (fun _ h => nomatch h) ?_
  show ∀ part ∈ [(⟨.value, .int 1, .outer⟩ : Part), ⟨.value, .float 1.0, .outer⟩,
    ⟨.value, .assign [(.bool true, .null)] none, .outer⟩], _
  rw [List.forall_mem_cons, List.forall_mem_cons, List.forall_mem_cons]
  exact ⟨hint, hfloat, hassign, List.forall_mem_nil _⟩

/-- The two ones keep apart, and both entries stay. -/
theorem decode_encode_ones :
    ones.HasFiniteFloats .value ∧ decode ones.encode.sorted = .ok ones ∧
      ∀ e' : Expr, e'.HasFiniteFloats .value → e'.encode.sorted = ones.encode.sorted → e' = ones :=
  ⟨hasFiniteFloats_ones, decode_encode hasFiniteFloats_ones⟩

end Expr

end TransitionRules
