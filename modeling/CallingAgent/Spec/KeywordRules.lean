import CallingAgent.Impl.RuleBasedAI

/-!
# What the local provider goes by

The provider answers the caller's last turn by its topic: the first one that the turn
mentions in words of its own, in upper or lower case.
-/

namespace CallingAgent.Spec.KeywordRules

open CallingAgent.Framework CallingAgent.Impl.RuleBasedAI

inductive Topic
  | goodbye
  | human
  | date
  | confirm
  | deny
  deriving DecidableEq

namespace Topic

def phrases : Topic → List String
  | goodbye => ["bye", "goodbye", "that's all", "thats all", "hang up", "no more questions"]
  | human => ["human", "agent", "person", "representative", "manager"]
  | date => ["checkin", "checkout", "date", "when"]
  | confirm => ["yes", "yeah", "yep", "confirm", "correct", "that's right", "thats right"]
  | deny => ["no", "nope", "not really", "incorrect", "wrong"]

/-- A text in lower case that names the topic. In check-in and check-out any character
may stand for the hyphen, but no line break. -/
def Named (topic : Topic) (xs : List Char) : Prop :=
  (∃ s ∈ topic.phrases, xs = s.toList) ∨
    topic = date ∧ ∃ c, c ≠ '\n' ∧ (xs = "check".toList ++ c :: "in".toList ∨ xs = "check".toList ++ c :: "out".toList)

/-- It is named somewhere, with no word character next to it. -/
def Mentioned (u : Unicode) (topic : Topic) (text : String) : Prop :=
  ∃ xs, topic.Named (xs.map fold) ∧ Regex.Stands u.word xs text.toList

def reply : Topic → String
  | goodbye => GOODBYE
  | human =>
    "Sure, I can arrange for a member of our team to call you back shortly. " ++
      "Is there anything else I can help with in the meantime?"
  | date => "I can help with check-in and check-out dates. Could you confirm the dates you're asking about?"
  | confirm => "Great, thank you for confirming. Is there anything else I can help with?"
  | deny => "No problem. Could you tell me more about what you'd like to change?"

end Topic

open Classical in
/-- The first topic that a text mentions. -/
noncomputable def topicOf (u : Unicode) (text : String) : Option Topic :=
  [Topic.goodbye, .human, .date, .confirm, .deny].find? fun topic => decide (topic.Mentioned u text)

noncomputable def replyTo (u : Unicode) (text : String) : String := ((topicOf u text).map Topic.reply).getD FALLBACK

end CallingAgent.Spec.KeywordRules
