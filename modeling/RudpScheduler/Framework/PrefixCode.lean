import Mathlib

/-!
# Messages on a byte stream

A code writes each message as a word, and a stream is the words of its messages one after another.
The receiver sees the stream cut off anywhere.  When no word begins another (`PrefixCode`), what it
has seen determines the messages: `Complete enc P p ms` says that `ms` are the messages whose words
are complete in `p`, and such messages are a first part of the ones the stream was written from
(`Complete.isPrefix`), all of them once the whole stream is there (`Complete.eq_all`).
-/

namespace RudpScheduler

variable {α β : Type*}

/-- The messages that satisfy `P` are written as non-empty words, and the first message of a stream
can be told from the stream. -/
structure PrefixCode (enc : α → List β) (P : α → Prop) : Prop where
  ne_nil : ∀ {a}, P a → enc a ≠ []
  cancel : ∀ {a b x y}, P a → P b → enc a ++ x = enc b ++ y → a = b ∧ x = y

/-- `ms` are the messages whose words are complete in `p`: `p` begins with their words, and what is
left over does not begin with another one. -/
def Complete (enc : α → List β) (P : α → Prop) (p : List β) (ms : List α) : Prop :=
  (∀ m ∈ ms, P m) ∧ ∃ rest, p = ms.flatMap enc ++ rest ∧ ∀ a, P a → ¬ enc a <+: rest

variable {enc : α → List β} {P : α → Prop} {ms all : List α} {p : List β}

/-- Two streams agree message by message as far as the shorter one goes. -/
lemma PrefixCode.isPrefix (hc : PrefixCode enc P) (hms : ∀ m ∈ ms, P m) (hall : ∀ m ∈ all, P m)
    (h : ms.flatMap enc <+: all.flatMap enc) : ms <+: all := by
  induction ms generalizing all with
  | nil => exact List.nil_prefix
  | cons m ms ih =>
      obtain ⟨hm, hms'⟩ := List.forall_mem_cons.mp hms
      rw [List.flatMap_cons] at h
      cases all with
      | nil =>
          have hnil := List.prefix_nil.mp h
          exact absurd (List.append_eq_nil_iff.mp hnil).1 (hc.ne_nil hm)
      | cons b all =>
          obtain ⟨hb, hall'⟩ := List.forall_mem_cons.mp hall
          obtain ⟨x, hx⟩ := h
          rw [List.flatMap_cons, List.append_assoc] at hx
          obtain ⟨hmb, hrest⟩ := hc.cancel hm hb hx
          exact List.cons_prefix_cons.mpr ⟨hmb, ih hms' hall' ⟨x, hrest⟩⟩

lemma Complete.isPrefix (hc : PrefixCode enc P) (h : Complete enc P p ms) (hall : ∀ m ∈ all, P m)
    (hp : p <+: all.flatMap enc) : ms <+: all := by
  obtain ⟨hms, rest, rfl, -⟩ := h
  exact hc.isPrefix hms hall ((List.prefix_append _ _).trans hp)

/-- On the whole stream nothing is left over. -/
lemma Complete.eq_all (hc : PrefixCode enc P) (hall : ∀ m ∈ all, P m)
    (h : Complete enc P (all.flatMap enc) ms) : ms = all := by
  obtain ⟨todo, rfl⟩ := h.isPrefix hc hall List.prefix_rfl
  obtain ⟨-, rest, hrest, hnone⟩ := h
  rw [List.flatMap_append] at hrest
  obtain rfl := List.append_cancel_left hrest
  cases todo with
  | nil => exact (List.append_nil ms).symm
  | cons b todo =>
      refine absurd ?_ (hnone b (hall b ?_))
      · exact List.prefix_append _ _
      · exact List.mem_append_right _ List.mem_cons_self

end RudpScheduler
