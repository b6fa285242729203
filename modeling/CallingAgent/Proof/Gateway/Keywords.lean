import CallingAgent.Proof.Gateway.Pipeline
import CallingAgent.Spec.KeywordRules

/-!
# The local provider

Each pattern reads a text up to the folding of its characters (`Reads`), and reads what
names its topic. All of that begins and ends with a letter, so that `\b` keeps it apart
from other words (`found_iff`).
-/

namespace CallingAgent.Proof.Gateway.Keywords

open CallingAgent.Framework CallingAgent.Framework.Regex CallingAgent.Impl CallingAgent.Impl.RuleBasedAI
open CallingAgent.Spec.KeywordRules CallingAgent.Spec.PhoneCall
open CallingAgent.Impl.SessionManager (Role)

/-! ## What the patterns read -/

/-- Whether `r` spells a text depends on what it is folded to. -/
def Reads (r : Regex Char) (L : List Char → Prop) : Prop := r.plain = true ∧ ∀ xs, r.spells xs ↔ L (xs.map fold)

theorem plain_phrase (s : String) : (phrase s).plain = true := by
  rw [phrase, literal]
  induction s.toList with
  | nil => rfl
  | cons c cs ih => exact ih

theorem reads_phrase (s : String) : Reads (phrase s) (· = s.toList) := ⟨plain_phrase s, fun _ => spells_literal⟩

variable {a b : Regex Char} {A B : List Char → Prop}

theorem Reads.seq (ha : Reads a A) (hb : Reads b B) :
    Reads (.seq a b) fun zs => ∃ xs ys, zs = xs ++ ys ∧ A xs ∧ B ys := by
  refine ⟨by simp [plain, ha.1, hb.1], fun zs => ⟨?_, ?_⟩⟩
  · rintro ⟨xs, ys, rfl, hx, hy⟩
    exact ⟨_, _, List.map_append, (ha.2 xs).mp hx, (hb.2 ys).mp hy⟩
  · rintro ⟨xs, ys, e, hx, hy⟩
    obtain ⟨us, vs, rfl, rfl, rfl⟩ := List.map_eq_append_iff.mp e
    exact ⟨us, vs, rfl, (ha.2 us).mpr hx, (hb.2 vs).mpr hy⟩

theorem Reads.alt (ha : Reads a A) (hb : Reads b B) : Reads (.alt a b) fun xs => A xs ∨ B xs :=
  ⟨by simp [plain, ha.1, hb.1], fun xs => or_congr (ha.2 xs) (hb.2 xs)⟩

theorem Reads.opt (ha : Reads a A) : Reads (.opt a) fun xs => A xs ∨ xs = [] :=
  ⟨ha.1, fun xs => or_congr (ha.2 xs) List.map_eq_nil_iff.symm⟩

theorem reads_empty : Reads (.empty : Regex Char) (· = []) := ⟨rfl, fun _ => List.map_eq_nil_iff.symm⟩

/-! ## Characters -/

/-- ASCII letters by their numbers. -/
theorem isLower_iff {c : Char} : c.isLower = true ↔ 97 ≤ c.toNat ∧ c.toNat ≤ 122 := by
  show (decide (c.val ≥ 97) && decide (c.val ≤ 122)) = true ↔ _
  rw [Bool.and_eq_true, decide_eq_true_eq, decide_eq_true_eq, ge_iff_le, UInt32.le_iff_toNat_le,
    UInt32.le_iff_toNat_le]
  exact Iff.rfl

theorem isUpper_iff {c : Char} : c.isUpper = true ↔ 65 ≤ c.toNat ∧ c.toNat ≤ 90 := by
  show decide (c.val ≥ 65 ∧ c.val ≤ 90) = true ↔ _
  rw [decide_eq_true_eq, ge_iff_le, UInt32.le_iff_toNat_le, UInt32.le_iff_toNat_le]
  exact Iff.rfl

theorem toNat_toLower (c : Char) :
    c.toLower.toNat = if 65 ≤ c.toNat ∧ c.toNat ≤ 90 then c.toNat + 32 else c.toNat := by
  have hiff : (c.val ≥ 'A'.val ∧ c.val ≤ 'Z'.val) ↔ 65 ≤ c.toNat ∧ c.toNat ≤ 90 := by
    simp only [ge_iff_le, UInt32.le_iff_toNat_le]
    exact Iff.rfl
  unfold Char.toLower
  split
  · rename_i h
    have hle : c.val.toNat ≤ 90 := (hiff.mp h).2
    have h32 : ('a'.val - 'A'.val).toNat = 32 := by decide
    rw [if_pos (hiff.mp h)]
    show (c.val + ('a'.val - 'A'.val)).toNat = c.val.toNat + 32
    rw [UInt32.toNat_add]
    omega
  · rename_i h
    rw [if_neg fun e => h (hiff.mpr e)]

/-- What a character that is none of the four is folded to. -/
theorem toNat_fold {c : Char} (h : c ∉ ['İ', 'ı', 'ſ', KELVIN]) :
    (fold c).toNat = if 65 ≤ c.toNat ∧ c.toNat ≤ 90 then c.toNat + 32 else c.toNat := by
  simp only [List.mem_cons, List.not_mem_nil, or_false, not_or] at h
  rw [fold, if_neg (not_or.mpr ⟨h.1, h.2.1⟩), if_neg h.2.2.1, if_neg h.2.2.2, toNat_toLower]

theorem fold_of_mem {c : Char} (h : c ∈ ['İ', 'ı', 'ſ', KELVIN]) : fold c ≠ '\n' ∧ c ≠ '\n' := by
  simp only [List.mem_cons, List.not_mem_nil, or_false] at h
  rcases h with rfl | rfl | rfl | rfl <;> decide

theorem fold_eq_newline {c : Char} : fold c = '\n' ↔ c = '\n' := by
  by_cases h : c ∈ ['İ', 'ı', 'ſ', KELVIN]
  · exact iff_of_false (fold_of_mem h).1 (fold_of_mem h).2
  · have hfold := toNat_fold h
    constructor
    · intro e
      rw [e, show '\n'.toNat = 10 from rfl] at hfold
      have hc : c.toNat = '\n'.toNat := by
        rw [show '\n'.toNat = 10 from rfl]
        split at hfold <;> omega
      exact Char.toNat_inj.mp hc
    · rintro rfl
      rfl

/-- What is folded to a lower-case letter is a word character. -/
theorem word_of_fold (u : Unicode) {c : Char} (h : (fold c).isLower = true) : u.word c = true := by
  rw [Unicode.word, Bool.or_eq_true]
  refine .inl ?_
  by_cases hc : c ∈ ['İ', 'ı', 'ſ', KELVIN]
  · exact u.folded c hc
  · have hlower := isLower_iff.mp h
    have hletter : c.isUpper = true ∨ c.isLower = true := by
      rw [isUpper_iff, isLower_iff]
      rw [toNat_fold hc] at hlower
      split at hlower <;> omega
    have hascii : c.val < 128 := by
      rw [isUpper_iff, isLower_iff] at hletter
      rw [UInt32.lt_iff_toNat_lt]
      show c.toNat < 128
      omega
    rw [u.ascii c hascii]
    show ((c.isUpper || c.isLower) || c.isDigit) = true
    rw [Bool.or_eq_true, Bool.or_eq_true]
    exact .inl hletter

/-! ## The patterns -/

theorem reads_anyOrNone : Reads anyOrNone fun xs => (∃ c, c ≠ '\n' ∧ xs = [c]) ∨ xs = [] := by
  refine ⟨rfl, fun xs => or_congr ?_ List.map_eq_nil_iff.symm⟩
  constructor
  · rintro ⟨c, rfl, hc⟩
    exact ⟨fold c, fun e => by simp [fold_eq_newline.mp e] at hc, rfl⟩
  · rintro ⟨c, hc, e⟩
    obtain ⟨d, rfl, rfl⟩ := List.map_eq_singleton_iff.mp e
    exact ⟨d, rfl, by simpa using fun e => hc (fold_eq_newline.mpr e)⟩

theorem Reads.congr (ha : Reads a A) (h : ∀ xs, A xs ↔ B xs) : Reads a B := ⟨ha.1, fun xs => (ha.2 xs).trans (h _)⟩

/-- The pattern of a topic. -/
def pattern : Topic → Regex Char
  | .goodbye => goodbye
  | .human => human
  | .date => date
  | .confirm => confirm
  | .deny => deny

theorem reads_pattern (topic : Topic) : Reads (pattern topic) topic.Named := by
  have hoptional := fun s s' s'' => (reads_phrase s).seq ((reads_phrase s').opt.seq ((reads_phrase s'').seq reads_empty))
  have hany := fun s s' => (reads_phrase s).seq (reads_anyOrNone.seq ((reads_phrase s').seq reads_empty))
  cases topic with
  | goodbye =>
    refine Reads.congr ((reads_phrase _).alt ((reads_phrase _).alt ((hoptional _ _ _).alt ((reads_phrase _).alt
      (reads_phrase _))))) fun xs => ?_
    simp [Topic.Named, Topic.phrases, and_or_left, exists_or, or_assoc]
  | human =>
    refine Reads.congr ((reads_phrase _).alt ((reads_phrase _).alt ((reads_phrase _).alt ((reads_phrase _).alt
      (reads_phrase _))))) fun xs => ?_
    simp [Topic.Named, Topic.phrases]
  | date =>
    refine Reads.congr ((hany _ _).alt ((hany _ _).alt ((reads_phrase _).alt (reads_phrase _)))) fun xs => ?_
    simp [Topic.Named, Topic.phrases, and_or_left, exists_or, or_assoc, and_comm]
    grind
  | confirm =>
    refine Reads.congr ((reads_phrase _).alt ((reads_phrase _).alt ((reads_phrase _).alt ((reads_phrase _).alt
      ((reads_phrase _).alt (hoptional _ _ _)))))) fun xs => ?_
    simp [Topic.Named, Topic.phrases, and_or_left, exists_or]
  | deny =>
    refine Reads.congr ((reads_phrase _).alt ((reads_phrase _).alt ((reads_phrase _).alt ((reads_phrase _).alt
      (reads_phrase _))))) fun xs => ?_
    simp [Topic.Named, Topic.phrases]

/-- What names a topic begins and ends with a letter. -/
theorem letters_of_named {topic : Topic} {xs : List Char} (h : topic.Named xs) :
    xs.head?.any Char.isLower = true ∧ xs.getLast?.any Char.isLower = true := by
  have hphrases : ∀ t ∈ [Topic.goodbye, .human, .date, .confirm, .deny], ∀ s ∈ t.phrases,
      s.toList.head?.any Char.isLower = true ∧ s.toList.getLast?.any Char.isLower = true := by decide
  rcases h with ⟨s, hs, rfl⟩ | ⟨-, c, -, rfl | rfl⟩
  · exact hphrases topic (by cases topic <;> simp) s hs
  · simp
  · simp

theorem any_word_of_fold (u : Unicode) {o : Option Char} (h : (o.map fold).any Char.isLower = true) :
    o.any u.word = true := by
  cases o with
  | none => cases h
  | some c => exact word_of_fold u h

/-- A pattern is found exactly if its topic is mentioned. -/
theorem found_iff (u : Unicode) (topic : Topic) (last : String) :
    found u (pattern topic) last = true ↔ topic.Mentioned u last := by
  obtain ⟨hplain, hreads⟩ := reads_pattern topic
  rw [found, search_bounded hplain fun xs hxs => ?_]
  · simp only [hreads]
    rfl
  · obtain ⟨hhead, hlast⟩ := letters_of_named ((hreads xs).mp hxs)
    rw [List.head?_map] at hhead
    rw [List.getLast?_map] at hlast
    exact ⟨any_word_of_fold u hhead, any_word_of_fold u hlast⟩

theorem respondTo_eq (u : Unicode) {last : String} (h : last ≠ "") : respondTo u last = replyTo u last := by
  have hfound := fun topic => found_iff u topic last
  simp only [respondTo, h, if_false, replyTo, topicOf, List.find?, ← hfound, pattern]
  cases found u goodbye last <;> cases found u human last <;> cases found u date last <;>
    cases found u confirm last <;> cases found u deny last <;> rfl

/-! ## The answers of a call -/

theorem upTo_of_length_le {n : Nat} {s : String} (h : s.toList.length ≤ n) : Text.upTo n s = s := by
  rw [Text.upTo, List.take_of_length_le h, String.ofList_toList]

theorem length_replyTo (u : Unicode) (last : String) : (replyTo u last).toList.length ≤ MAX_RESPONSE_CHARS := by
  unfold replyTo
  cases topicOf u last with
  | none => decide +kernel
  | some topic => cases topic <;> decide +kernel

/-- The provider answers the last turn, whatever has been said before. -/
theorem reply_user (u : Unicode) (said : Said) {t : String} (ht : Text.strip t = t ∧ t ≠ "") :
    Pipeline.reply (generateResponse u) (said ++ [(.user, t)]) = replyTo u t := by
  show respond u (said ++ [(.user, t)]) = replyTo u t
  have hlast : ((said ++ [(Role.user, t)]).filter fun t => decide (t.1 = .user)).getLast? = some (.user, t) := by
    simp [List.filter_append]
  rw [respond, hlast]
  show Text.upTo MAX_RESPONSE_CHARS (respondTo u (Text.strip t)) = replyTo u t
  rw [ht.1, respondTo_eq u ht.2, upTo_of_length_le (length_replyTo u t)]

theorem answers_eq (u : Unicode) (said : Said) {ts : List String} (h : ∀ t ∈ ts, Text.strip t = t ∧ t ≠ "") :
    answers (Pipeline.reply (generateResponse u)) said ts = ts.map (replyTo u) := by
  induction ts generalizing said with
  | nil => rfl
  | cons t ts ih =>
    rw [answers, reply_user u said (h t List.mem_cons_self), ih _ fun t ht => h t (List.mem_cons_of_mem _ ht),
      List.map_cons]

/-- What is understood is not blank, nor does it begin or end so. -/
theorem strip_understood {transcribe : Nat → List UInt8 → Except SpeechToText.STTError String} {n : Nat}
    {audios : List (List UInt8)} {t : String} (h : t ∈ understood transcribe n audios) :
    Text.strip t = t ∧ t ≠ "" := by
  induction audios generalizing n with
  | nil => cases h
  | cons audio audios ih =>
    rw [understood] at h
    rcases List.mem_append.mp h with h | h
    · split at h
      · split at h
        · cases h
        · rename_i hne
          rw [List.mem_singleton.mp h]
          exact ⟨Text.strip_strip _, hne⟩
      · cases h
    · exact ih h

/-- With the local provider, the caller is greeted, and each turn that is understood is
answered for itself: by the first topic that it mentions in words of its own. -/
theorem local_speeches (u : Unicode) (said : Said) (transcribe : Nat → List UInt8 → Except SpeechToText.STTError String)
    (audios : List (List UInt8)) :
    speeches (Pipeline.reply (generateResponse u)) said (understood transcribe 0 audios) =
      GREETING :: (understood transcribe 0 audios).map (replyTo u) :=
  congrArg (GREETING :: ·) (answers_eq u _ fun _ => strip_understood)

end CallingAgent.Proof.Gateway.Keywords
