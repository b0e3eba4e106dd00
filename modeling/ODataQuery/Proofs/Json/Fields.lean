import ODataQuery.Json.Decoder

/-!
Decoding undoes encoding, for the parts that documents are made of: texts, names, counts, lists, and the members of
a record one after the other. A member that is only written if it has a value leaves the field as it was if it has
none.
-/

namespace ODataQuery.Json

/-! ### Values -/

/-- Decoding gives back what was encoded. -/
def Undoes (decode : Decoder α) (encode : α → Json) : Prop := ∀ a, decode (encode a) = .ok a

theorem undoes_string : Undoes decodeString ofString := fun _ => rfl

theorem undoes_name {find? : String → Option α} {name : α → String} (h : ∀ a, find? (name a) = some a) :
    Undoes (decodeName find?) fun a => ofString (name a) := by
  intro a
  simp [ofString, decodeName, h]

theorem undoes_meaning {meaning? : String → Option α} {text : α → String} (refusal : String → String)
    (h : ∀ a, meaning? (text a) = some a) : Undoes (decodeMeaning meaning? refusal) fun a => ofString (text a) := by
  intro a
  simp [ofString, decodeMeaning, h]

theorem natural?_decimal (n : Nat) : natural? (Text.decimal n) = some n := by
  have hdigits : (Text.digits n).all Char.isDigit = true :=
    List.all_eq_true.mpr fun _ hc => Nat.isDigit_of_mem_toDigits (by decide) (by decide) hc
  have hvalue : Text.ofDigits (Text.digits n) = n := Nat.ofDigitChars_ten_toDigits
  rw [natural?, Text.decimal, String.toList_ofList, if_pos ⟨Nat.toDigits_ne_nil, hdigits⟩, hvalue]

theorem undoes_count : Undoes decodeCount fun n => ofNat n.toNat := by
  intro n
  simp only [ofNat, decodeCount, natural?_decimal]
  exact dif_pos n.toNat_lt

theorem Undoes.items {decode : Decoder α} {encode : α → Json} (h : Undoes decode encode) (as : List α) :
    decodeItems decode (as.map encode) = .ok as := by
  induction as with
  | nil => rfl
  | cons a as ih =>
      rw [List.map_cons, decodeItems, h, ih]
      rfl

theorem Undoes.list {decode : Decoder α} {encode : α → Json} (h : Undoes decode encode) :
    Undoes (decodeList decode) fun as => array (as.map encode) :=
  h.items

theorem undoes_strings : Undoes (decodeList decodeString) ofStrings := undoes_string.list

theorem Undoes.option {decode : Decoder α} {encode : α → Json} (h : Undoes decode encode) {a : α}
    (hnull : encode a ≠ null) : decodeOption decode (encode a) = .ok (some a) := by
  have hdecode : decodeOption decode (encode a) = (decode (encode a)).map some := by
    cases hencode : encode a with
    | null => exact absurd hencode hnull
    | _ => rfl
  rw [hdecode, h]
  rfl

/-! ### Members -/

section

variable {fields : List (RecordField σ)} {keys : List String} {key : String}

/-- A member is read into its field, and the others after it. -/
theorem readMember_cons {decode : Decoder α} {get : σ → Option α} {put : α → σ → σ} {s : σ} {j : Json} {a : α}
    (hfield : fields.find? (·.keys.contains key) = some (.of keys decode get put)) (hunread : get s = none)
    (h : decode j = .ok a) (rest : List (Option String × Json)) :
    ((some key, j) :: rest).foldlM (readMember fields) s = rest.foldlM (readMember fields) (put a s) := by
  rw [List.foldlM_cons, readMember, hfield]
  simp [RecordField.of, hunread, h, Except.map, bind, Except.bind]

/-- A member that stands there only if it has a value. The state after it is given as a function of the value. -/
theorem readMember_optional {decode : Decoder α} {encode : α → Json} {get : σ → Option (Option α)}
    {put : Option α → σ → σ} (after : Option α → σ)
    (hfield : fields.find? (·.keys.contains key) = some (.of keys (decodeOption decode) get put))
    (hunread : get (after none) = none) (hput : ∀ a, put (some a) (after none) = after (some a))
    (h : Undoes decode encode) (hnull : ∀ a, encode a ≠ null) (o : Option α) (rest : List (Option String × Json)) :
    ((o.map fun a => (some key, encode a)).toList ++ rest).foldlM (readMember fields) (after none) =
      rest.foldlM (readMember fields) (after o) := by
  cases o with
  | none => rfl
  | some a => exact (readMember_cons hfield hunread (h.option (hnull a)) rest).trans (by rw [hput])

end

/-- What an optional field holds once all members are read. -/
@[simp]
theorem join_map_some (o : Option α) : (o.map some).join = o := by
  cases o <;> rfl

end ODataQuery.Json
