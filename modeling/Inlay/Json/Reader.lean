import Inlay.Json.Number
import Inlay.Json.Quoted
import Inlay.Value.Update

namespace Inlay.Json

/-- Names that stand for a value. The names of special numbers are known, and refused. -/
def names : List (Text × Except Fault Value) :=
  [("null", .ok .null), ("true", .ok (.bool true)), ("false", .ok (.bool false)),
    ("NaN", .error (.constant "NaN")), ("Infinity", .error (.constant "Infinity")),
    ("-Infinity", .error (.constant "-Infinity"))]

def scalar (text : Text) : Except Fault (Scanned Value text) :=
  let named := names.findSome? fun (name, value) => named? name value text
  match named with
  | some found => found.value.map fun value => found.map fun _ => value
  | none =>
      match Numeral.scan? text with
      | some found => found.value.value.map fun value => found.map fun _ => value
      | none => .error (.located .missingValue text.length)

mutual

def value (text : Text) : Except Fault (Scanned Value text) :=
  match text with
  | [] => .error (.located .missingValue 0)
  | c :: rest =>
      if c = '"' then
        match quoted (rest.length + 1) rest with
        | .error fault => .error fault
        | .ok string => .ok ⟨.str string.value, string.rest, Nat.lt_succ_of_lt string.shorter⟩
      else if c = '{' then
        match mark? rest with
        | some mark =>
            if mark.value = '}' then .ok ⟨.obj [], mark.rest, Nat.lt_succ_of_lt mark.shorter⟩
            else
              match members (skipBlanks rest) with
              | .error fault => .error fault
              | .ok all =>
                  .ok ⟨.obj (Fields.ofMembers all.value), all.rest,
                    Nat.lt_succ_of_lt (Nat.lt_of_lt_of_le all.shorter (length_skipBlanks_le rest))⟩
        | none => .error (.located .missingName 0)
      else if c = '[' then
        match mark? rest with
        | some mark =>
            if mark.value = ']' then .ok ⟨.arr [], mark.rest, Nat.lt_succ_of_lt mark.shorter⟩
            else
              match elements (skipBlanks rest) with
              | .error fault => .error fault
              | .ok all =>
                  .ok ⟨.arr all.value, all.rest,
                    Nat.lt_succ_of_lt (Nat.lt_of_lt_of_le all.shorter (length_skipBlanks_le rest))⟩
        | none => .error (.located .missingValue 0)
      else scalar (c :: rest)
termination_by (text.length, 0)
decreasing_by
  all_goals
    have bound := length_skipBlanks_le rest
    simp only [List.length_cons]
    apply Prod.Lex.left
    omega

def elements (text : Text) : Except Fault (Scanned (List Value) text) :=
  match value text with
  | .error fault => .error fault
  | .ok first =>
      match mark? first.rest with
      | none => .error (.located .missingComma 0)
      | some mark =>
          if mark.value = ']' then
            .ok ⟨[first.value], mark.rest, Nat.lt_trans mark.shorter first.shorter⟩
          else if mark.value = ',' then
            match elements (skipBlanks mark.rest) with
            | .error fault => .error fault
            | .ok more =>
                .ok ⟨first.value :: more.value, more.rest,
                  Nat.lt_trans
                    (Nat.lt_of_lt_of_le more.shorter (length_skipBlanks_le mark.rest))
                    (Nat.lt_trans mark.shorter first.shorter)⟩
          else .error (.located .missingComma (mark.rest.length + 1))
termination_by (text.length, 1)
decreasing_by
  · exact Prod.Lex.right _ (by decide)
  · have bound := length_skipBlanks_le mark.rest
    have markShorter := mark.shorter
    have firstShorter := first.shorter
    apply Prod.Lex.left
    omega

def members (text : Text) : Except Fault (Scanned (List (Text × Value)) text) :=
  match text with
  | [] => .error (.located .missingName 0)
  | c :: rest =>
      if c = '"' then
        match quoted (rest.length + 1) rest with
        | .error fault => .error fault
        | .ok name =>
            match mark? name.rest with
            | none => .error (.located .missingColon 0)
            | some colon =>
                if colon.value = ':' then
                  match value (skipBlanks colon.rest) with
                  | .error fault => .error fault
                  | .ok first =>
                      match mark? first.rest with
                      | none => .error (.located .missingComma 0)
                      | some mark =>
                          have passed : mark.rest.length < rest.length :=
                            Nat.lt_trans mark.shorter
                              (Nat.lt_trans
                                (Nat.lt_of_lt_of_le first.shorter
                                  (length_skipBlanks_le colon.rest))
                                (Nat.lt_trans colon.shorter name.shorter))
                          if mark.value = '}' then
                            .ok ⟨[(name.value, first.value)], mark.rest, Nat.lt_succ_of_lt passed⟩
                          else if mark.value = ',' then
                            match members (skipBlanks mark.rest) with
                            | .error fault => .error fault
                            | .ok more =>
                                .ok ⟨(name.value, first.value) :: more.value, more.rest,
                                  Nat.lt_trans
                                    (Nat.lt_of_lt_of_le more.shorter
                                      (length_skipBlanks_le mark.rest))
                                    (Nat.lt_succ_of_lt passed)⟩
                          else .error (.located .missingComma (mark.rest.length + 1))
                else .error (.located .missingColon (colon.rest.length + 1))
      else .error (.located .missingName (rest.length + 1))
termination_by (text.length, 1)
decreasing_by
  · have bound := length_skipBlanks_le colon.rest
    have colonShorter := colon.shorter
    have nameShorter := name.shorter
    simp only [List.length_cons]
    apply Prod.Lex.left
    omega
  · have bound := length_skipBlanks_le mark.rest
    simp only [List.length_cons]
    apply Prod.Lex.left
    omega

end

def parse (text : Text) : Except Fault Value :=
  if text.head?.map CodePoint.val = some 0xFEFF then .error (.located .byteOrderMark text.length)
  else
    match value (skipBlanks text) with
    | .error fault => .error fault
    | .ok only =>
        let rest := skipBlanks only.rest
        if rest = [] then .ok only.value else .error (.located .extraData rest.length)

end Inlay.Json
