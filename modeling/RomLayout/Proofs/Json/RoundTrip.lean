import RomLayout.Proofs.Json.Scanning

set_option autoImplicit false

/-!
Reading a written JSON value gives it back, however it is written. The tokens of a value
take the states from one that is ready for a value to one that has completed it, whatever
brackets are open.
-/

namespace RomLayout.Json

open State

/-- What may start an array may also follow its bracket. -/
theorem foldlM_tokens_elementOrEnd (json : Json) (frames : List Frame) (rest : List Token) :
    (json.tokens ++ rest).foldlM step (.elementOrEnd frames) =
      (json.tokens ++ rest).foldlM step (.ready (.array [] :: frames)) := by
  cases json with
  | null | boolean | number | string => rfl
  | array elements => cases elements <;> rfl
  | object members => cases members <;> rfl

mutual

theorem foldlM_tokens (frames : List Frame) (rest : List Token) :
    (json : Json) →
      (json.tokens ++ rest).foldlM step (.ready frames) =
        rest.foldlM step (.complete frames json)
  | .null => rfl
  | .boolean _ => rfl
  | .number _ => rfl
  | .string _ => rfl
  | .array [] => rfl
  | .array (element :: others) => by
      rw [tokens, List.cons_append, List.append_assoc]
      change (element.tokens ++ (elementTokens others ++ rest)).foldlM step
        (.elementOrEnd frames) = _
      rw [foldlM_tokens_elementOrEnd, foldlM_tokens _ _ element,
        foldlM_elementTokens frames rest [] element others]
      rfl
  | .object [] => rfl
  | .object ((name, value) :: others) => by
      rw [tokens, List.cons_append, List.cons_append, List.cons_append, List.append_assoc]
      change (value.tokens ++ (memberTokens others ++ rest)).foldlM step
        (.ready (.object [] name :: frames)) = _
      rw [foldlM_tokens _ _ value, foldlM_memberTokens frames rest [] name value others]
      rfl

theorem foldlM_elementTokens (frames : List Frame) (rest : List Token) (seen : List Json)
    (value : Json) :
    (elements : List Json) →
      (elementTokens elements ++ rest).foldlM step (.complete (.array seen :: frames) value) =
        rest.foldlM step (.complete frames (.array (seen.reverse ++ value :: elements)))
  | [] => by
      change rest.foldlM step (.complete frames (.array (value :: seen).reverse)) = _
      rw [List.reverse_cons]
  | element :: others => by
      rw [elementTokens, List.cons_append, List.append_assoc]
      change (element.tokens ++ (elementTokens others ++ rest)).foldlM step
        (.ready (.array (value :: seen) :: frames)) = _
      rw [foldlM_tokens _ _ element,
        foldlM_elementTokens frames rest (value :: seen) element others,
        List.reverse_cons, List.append_assoc, List.singleton_append]

theorem foldlM_memberTokens (frames : List Frame) (rest : List Token)
    (seen : List (Option String × Json)) (name : Option String) (value : Json) :
    (members : List (Option String × Json)) →
      (memberTokens members ++ rest).foldlM step (.complete (.object seen name :: frames) value) =
        rest.foldlM step
          (.complete frames (.object (seen.reverse ++ (name, value) :: members)))
  | [] => by
      change rest.foldlM step (.complete frames (.object ((name, value) :: seen).reverse)) = _
      rw [List.reverse_cons]
  | (next, following) :: others => by
      rw [memberTokens, List.cons_append, List.cons_append, List.cons_append, List.append_assoc]
      change (following.tokens ++ (memberTokens others ++ rest)).foldlM step
        (.ready (.object ((name, value) :: seen) next :: frames)) = _
      rw [foldlM_tokens _ _ following,
        foldlM_memberTokens frames rest ((name, value) :: seen) next following others,
        List.reverse_cons, List.append_assoc, List.singleton_append]

end

theorem ofTokens?_tokens (json : Json) : ofTokens? json.tokens = some json := by
  have run := foldlM_tokens [] [] json
  rw [List.append_nil] at run
  rw [ofTokens?, run]
  rfl

/-- A text is read as the value that it writes. So neither white space nor the choice of
escapes makes a difference. -/
theorem Writes.ofText?_eq {json : Json} {text : String} (writes : json.Writes text) :
    ofText? text = some json := by
  have separated : Token.Separated json.tokens := by
    have behind : Token.Separated [] := .nil
    rw [← List.append_nil json.tokens]
    apply Token.separated_tokens behind
    rintro _ ⟨⟩
  rw [ofText?, writes.scan_eq separated, Option.bind_some, ofTokens?_tokens]

theorem ofText?_pretty {json : Json} (follows : json.IsGrammatical) :
    ofText? json.pretty = some json :=
  (writes_pretty follows).ofText?_eq

end RomLayout.Json
