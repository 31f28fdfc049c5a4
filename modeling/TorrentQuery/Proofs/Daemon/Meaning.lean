import TorrentQuery.Daemon.PreFilter
import TorrentQuery.Proofs.Number.Integer
import TorrentQuery.Proofs.Text.Lower

namespace TorrentQuery

open Number Text

namespace Command

variable (call : String → List Arg → Bool)

mutual

/-- Whether a command is true, where `call` tells it of the calls in it. -/
def holds : Command → Bool
  | .call name args => call name args
  | .not c => !c.holds
  | .and cs => allHold cs
  | .or cs => anyHolds cs

def allHold : List Command → Bool
  | [] => true
  | c :: r => c.holds && allHold r

def anyHolds : List Command → Bool
  | [] => false
  | c :: r => c.holds || anyHolds r

end

theorem allHold_iff {cs : List Command} :
    allHold call cs = true ↔ ∀ c ∈ cs, c.holds call = true := by
  induction cs with
  | nil => simp [allHold]
  | cons c cs ih => simp [allHold, ih]

theorem anyHolds_iff {cs : List Command} :
    anyHolds call cs = true ↔ ∃ c ∈ cs, c.holds call = true := by
  induction cs with
  | nil => simp [anyHolds]
  | cons c cs ih => simp [anyHolds, ih]

@[simp] theorem holds_negate (c : Command) : c.negate.holds call = !c.holds call := by
  cases c <;> simp [negate, holds]

end Command

def Arg.text : Arg → String
  | .raw s => s
  | .str s => s

def Arg.spellings (key : String) : List String := [key, "$" ++ key, "value=$" ++ key]

/-- What one item has to say under each key. -/
abbrev Texts := String → String

namespace Texts

/-- The text behind any number of leading `value=`. -/
def bare : List Char → List Char
  | 'v' :: 'a' :: 'l' :: 'u' :: 'e' :: '=' :: r => bare r
  | s => s

def keyOf (s : String) : String := String.ofList ((bare s.toList).dropWhile (· == '$'))

def integer (s : String) : Int :=
  match readInt maxInt64 (bare s.toList) with
  | .ok n => n
  | .error _ => 0

def relation? : String → Option (Int → Int → Bool)
  | "equal" => some fun a b => a == b
  | "greater" => some fun a b => b < a
  | "less" => some fun a b => a < b
  | _ => none

/-- The answer to a call. Other calls than those that conditions are built from are never true. -/
def answer (texts : Texts) (name : String) : List Arg → Bool
  | key :: operand :: _ =>
    let actual := texts (keyOf key.text)
    if name = "string.contains_i" then occursIn (lower operand.text.toList) (lower actual.toList)
    else if name = "equal" && operand.text = "cat=" then actual.isEmpty
    else (relation? name).any fun r => r (integer actual) (integer operand.text)
  | _ => false

theorem bare_eq_self {c : Char} {r : List Char} (h : c ≠ 'v') : bare (c :: r) = c :: r := by
  unfold bare
  split
  · next heq => exact absurd (List.cons.inj heq).1 h
  · rfl

/-- A key that does not itself look like a value is asked for in whichever way it is written. -/
theorem keyOf_of_mem_spellings {key a : String} (hbare : bare key.toList = key.toList)
    (hhead : key.toList.head? ≠ some '$') (ha : a ∈ Arg.spellings key) : keyOf a = key := by
  have hdrop : key.toList.dropWhile (· == '$') = key.toList := by
    cases h : key.toList with
    | nil => rfl
    | cons c r =>
      rw [h] at hhead
      have hc : c ≠ '$' := fun hc => hhead (by rw [hc]; rfl)
      simp [hc]
  have hdollar : bare ('$' :: key.toList) = '$' :: key.toList := bare_eq_self (by decide)
  simp only [Arg.spellings, List.mem_cons, List.not_mem_nil, or_false] at ha
  rcases ha with rfl | rfl | rfl
  · rw [keyOf, hbare, hdrop, String.ofList_toList]
  · rw [keyOf, String.toList_append]
    change String.ofList ((bare ('$' :: key.toList)).dropWhile (· == '$')) = key
    rw [hdollar, List.dropWhile_cons_of_pos rfl, hdrop, String.ofList_toList]
  · rw [keyOf, String.toList_append]
    change String.ofList ((bare ('$' :: key.toList)).dropWhile (· == '$')) = key
    rw [hdollar, List.dropWhile_cons_of_pos rfl, hdrop, String.ofList_toList]

theorem bare_toString (n : Int) : bare (toString n).toList = (toString n).toList := by
  cases n with
  | ofNat n =>
    obtain ⟨c, r, hcr, hc⟩ := toDigits_eq_cons n
    rw [toList_toString_ofNat, hcr]
    exact bare_eq_self (by rintro rfl; cases hc)
  | negSucc n =>
    rw [toList_toString_negSucc]
    exact bare_eq_self (by decide)

/-- The operand of a comparison is read as it was written. -/
theorem integer_value {n : Int} (h : Fits64 n) : integer ("value=" ++ toString n) = n := by
  have hbare : bare ("value=" ++ toString n).toList = (toString n).toList := by
    rw [String.toList_append]
    exact bare_toString n
  rw [integer, hbare, readInt_toString h]

variable {texts : Texts} {key : String}

theorem answer_value {name : String} {r : Int → Int → Bool} (hr : relation? name = some r) {n : Int}
    (h : Fits64 n) : texts.answer name [.raw key, .raw ("value=" ++ toString n)] =
      r (integer (texts (keyOf key))) n := by
  -- a comparison is neither a search nor a question for an empty text
  have hname : name ≠ "string.contains_i" := by
    rintro rfl
    cases hr
  have hcat : "value=" ++ toString n ≠ "cat=" := by
    intro heq
    have hhead := congrArg (fun s => s.toList.head?) heq
    rw [String.toList_append] at hhead
    simp at hhead
  simp only [answer, Arg.text, if_neg hname, hcat, decide_false, Bool.and_false, Bool.false_eq_true,
    if_false, hr, Option.any_some, integer_value h]

theorem holds_compare {name : String} {r : Int → Int → Bool} (hr : relation? name = some r)
    {n : Int} (h : Fits64 n) : (Command.compare name key n).holds texts.answer =
      r (integer (texts (keyOf key))) n := answer_value hr h

theorem holds_compareValue {name : String} {r : Int → Int → Bool} (hr : relation? name = some r)
    {n : Int} (h : Fits64 n) : (Command.compareValue name key n).holds texts.answer =
      r (integer (texts (keyOf ("value=$" ++ key)))) n := answer_value hr h

theorem holds_empty :
    (Command.empty key).holds texts.answer = (texts (keyOf key)).isEmpty := by
  simp [Command.empty, Command.holds, answer, Arg.text]

theorem holds_contains {needle : String} : (Command.contains key needle).holds texts.answer =
    occursIn (lower needle.toList) (lower (texts (keyOf ("$" ++ key))).toList) := by
  simp [Command.contains, Command.holds, answer, Arg.text]

end Texts

end TorrentQuery
