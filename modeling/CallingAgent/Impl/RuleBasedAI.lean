import CallingAgent.Framework.Regex
import CallingAgent.Impl.Conversation
import CallingAgent.Impl.Text

/-!
# `services/voice-gateway/ai_provider.py`: `LocalRuleBasedAIProvider`

The keyword rules, with the patterns as they are searched for with `re.I`.
-/

namespace CallingAgent.Impl.RuleBasedAI

open CallingAgent.Framework CallingAgent.Framework.Regex CallingAgent.Impl.Text
open CallingAgent.Impl.SessionManager (Role)
open CallingAgent.Impl.Conversation (AIError)

/-- The sign for kelvin, which is not the letter. -/
def KELVIN : Char := Char.ofNat 0x212A

/-- `str.isalnum` of a character; on ASCII, and on the characters that `re.I` takes for
ASCII letters, as it is. -/
structure Unicode where
  isalnum : Char → Bool
  ascii : ∀ c : Char, c.val < 128 → isalnum c = c.isAlphanum
  folded : ∀ c ∈ ['İ', 'ı', 'ſ', KELVIN], isalnum c = true

/-- The lower-case letter that a character matches with `re.I`. -/
def fold (c : Char) : Char :=
  if c = 'İ' ∨ c = 'ı' then 'i' else if c = 'ſ' then 's' else if c = KELVIN then 'k' else c.toLower

/-- `\w` -/
def Unicode.word (u : Unicode) (c : Char) : Bool := u.isalnum c || c == '_'

def phrase (s : String) : Regex Char := literal fold s.toList

/-- `.?` -/
def anyOrNone : Regex Char := opt (cls fun c => c != '\n')

def GREETING : String :=
  "Hello, thank you for calling. This is an automated assistant. How can I help you today?"

def GOODBYE : String := "Thank you for calling. Have a great day. Goodbye."

def FALLBACK : String := "I'm sorry, I didn't quite understand that. Could you say that again?"

def MAX_RESPONSE_CHARS : Nat := 500

/-! ## The patterns, without the `\b` around them -/

def goodbye : Regex Char :=
  oneOf (phrase "bye")
    [phrase "goodbye", seqs [phrase "that", opt (phrase "'"), phrase "s all"], phrase "hang up", phrase "no more questions"]

def confirm : Regex Char :=
  oneOf (phrase "yes")
    [phrase "yeah", phrase "yep", phrase "confirm", phrase "correct", seqs [phrase "that", opt (phrase "'"), phrase "s right"]]

def deny : Regex Char := oneOf (phrase "no") [phrase "nope", phrase "not really", phrase "incorrect", phrase "wrong"]

def date : Regex Char :=
  oneOf (seqs [phrase "check", anyOrNone, phrase "in"])
    [seqs [phrase "check", anyOrNone, phrase "out"], phrase "date", phrase "when"]

def human : Regex Char := oneOf (phrase "human") [phrase "agent", phrase "person", phrase "representative", phrase "manager"]

/-- `pattern.search(last)` -/
def found (u : Unicode) (pattern : Regex Char) (last : String) : Bool := (bounded u.word pattern).search last.toList

/-- `_respond`, of the last user turn. -/
def respondTo (u : Unicode) (last : String) : String :=
  if last = "" then FALLBACK
  else if found u goodbye last then GOODBYE
  else if found u human last then
    "Sure, I can arrange for a member of our team to call you back shortly. " ++
      "Is there anything else I can help with in the meantime?"
  else if found u date last then
    "I can help with check-in and check-out dates. Could you confirm the dates you're asking about?"
  else if found u confirm last then "Great, thank you for confirming. Is there anything else I can help with?"
  else if found u deny last then "No problem. Could you tell me more about what you'd like to change?"
  else FALLBACK

/-- `_respond` -/
def respond (u : Unicode) (turns : List (Role × String)) : String :=
  match (turns.filter fun t => t.1 = .user).getLast? with
  | none => GREETING
  | some t => upTo MAX_RESPONSE_CHARS (respondTo u (strip t.2))

/-- `generate_response`: `_respond` raises nothing. -/
def generateResponse (u : Unicode) (turns : List (Role × String)) : Except AIError String := .ok (respond u turns)

end CallingAgent.Impl.RuleBasedAI
