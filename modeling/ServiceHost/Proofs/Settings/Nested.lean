import ServiceHost.Settings.Basic
import Mathlib.Data.List.Basic

/-!
# Nested settings — a root is the front of a key

Moving the root is only a way to write keys short. What a getter answers, a value as well as an
error, depends on two things alone: **the absolute key, and what the entries have under it**
(`AgreeAt`). Both are the same whether a key is looked up below a root or the root is written in
front of it, so no getter can tell the two apart; and roots below roots are one root
(`under_reads_longer_key`).

The one root that is no front is the empty one: below it a key is looked up as it is, and not with
a dot in front.
-/

set_option autoImplicit false

namespace ServiceHost

namespace Settings

/-- One key of some settings and one key of others are the same absolute key, with the same text
under it. -/
structure AgreeAt (s : Settings) (key : String) (t : Settings) (other : String) : Prop where
  absolute_eq : s.absolute key = t.absolute other
  text?_eq : s.text? key = t.text? other

variable {s t : Settings} {path key other : String}

/-! ## What a getter depends on -/

namespace AgreeAt

theorem has_eq (h : AgreeAt s key t other) : s.has key = t.has other := by
  rw [has, has, h.text?_eq]

theorem text_eq (h : AgreeAt s key t other) : s.text key = t.text other := by
  rw [text, text, h.text?_eq, h.absolute_eq]

theorem textOr_eq (h : AgreeAt s key t other) (default : String) :
    s.textOr key default = t.textOr other default := by
  rw [textOr, textOr, h.text?_eq]

theorem parsed_eq {α : Type} (h : AgreeAt s key t other) (value kind : String)
    (read? : String → Option α) :
    s.parsed key value kind read? = t.parsed other value kind read? := by
  rw [parsed, parsed, h.absolute_eq]

theorem integer_eq (h : AgreeAt s key t other) (kind : IntegerKind) :
    s.integer kind key = t.integer kind other := by
  unfold integer
  rw [h.text_eq]
  cases t.text other with
  | error error => rfl
  | ok value => exact h.parsed_eq value kind.label kind.read?

theorem integerOr_eq (h : AgreeAt s key t other) (kind : IntegerKind) (default : Int) :
    s.integerOr kind key default = t.integerOr kind other default := by
  unfold integerOr
  rw [h.text?_eq]
  cases t.text? other with
  | none => rfl
  | some value => exact h.parsed_eq value kind.label kind.read?

theorem flagOr_eq (h : AgreeAt s key t other) (default : Bool) :
    s.flagOr key default = t.flagOr other default := by
  unfold flagOr
  rw [h.text?_eq]
  cases t.text? other with
  | none => rfl
  | some value => exact h.parsed_eq value "boolean" readFlag?

end AgreeAt

/-! ## Below a root -/

theorem startsWith_append (root rest : String) : startsWith root (root ++ rest) = true := by
  simp [startsWith]

theorem startsWith_of_append {upper rest : String}
    (h : startsWith (upper ++ rest) key = true) : startsWith upper key = true := by
  simp only [startsWith, List.isPrefixOf_iff_prefix, String.toList_append] at h ⊢
  exact (List.prefix_append _ _).trans h

theorem absolute_under (h : s.absolute path ≠ "") (key : String) :
    (s.under path).absolute key = s.absolute path ++ "." ++ key := by
  rw [absolute, under, if_neg h]

theorem absolute_append (s : Settings) (path key : String) :
    s.absolute (path ++ "." ++ key) = s.absolute path ++ "." ++ key := by
  unfold absolute
  split
  · rfl
  · simp only [String.append_assoc]

theorem text?_under (h : s.absolute path ≠ "") (key : String) :
    (s.under path).text? key = s.entries[s.absolute path ++ "." ++ key]? := by
  have hfront : startsWith (s.absolute path) (s.absolute path ++ "." ++ key) = true := by
    rw [String.append_assoc]
    exact startsWith_append _ _
  rw [text?, absolute_under h, under, Std.TreeMap.getElem?_filter']
  cases s.entries[s.absolute path ++ "." ++ key]? with
  | none => rfl
  | some value => simp [hfront]

/-- **A key below a root agrees with the longer key.** -/
theorem agreeAt_under (h : s.absolute path ≠ "") (key : String) :
    AgreeAt (s.under path) key s (path ++ "." ++ key) := by
  constructor
  · rw [absolute_under h, absolute_append]
  · rw [text?_under h, text?, absolute_append]

theorem root_under_under (h : s.absolute path ≠ "") (inner : String) :
    ((s.under path).under inner).root = (s.under (path ++ "." ++ inner)).root :=
  (agreeAt_under h inner).absolute_eq

/-- What starts with the longer root starts with the shorter one, so narrowing twice is narrowing
once. -/
theorem toList_under_under (h : s.absolute path ≠ "") (inner : String) :
    ((s.under path).under inner).entries.toList =
      (s.under (path ++ "." ++ inner)).entries.toList := by
  have hroot := root_under_under h inner
  simp only [under, Std.TreeMap.toList_filter, List.filter_filter] at hroot ⊢
  rw [hroot]
  apply List.filter_congr
  intro entry _
  cases hlong : startsWith (s.absolute (path ++ "." ++ inner)) entry.1 with
  | false => rfl
  | true =>
    rw [absolute_append, String.append_assoc] at hlong
    rw [startsWith_of_append hlong]
    rfl

/-- **Settings below a root read like their parent with a longer key.** Roots below roots are the
root that joins them, with the same entries; and every getter answers the same value or the same
error, with the same absolute key in it. -/
theorem under_reads_longer_key (s : Settings) (path : String) (h : s.absolute path ≠ "") :
    (∀ inner,
      ((s.under path).under inner).root = (s.under (path ++ "." ++ inner)).root ∧
      ((s.under path).under inner).entries.toList =
        (s.under (path ++ "." ++ inner)).entries.toList) ∧
    (∀ key,
      (s.under path).has key = s.has (path ++ "." ++ key) ∧
      (s.under path).text key = s.text (path ++ "." ++ key) ∧
      (∀ default, (s.under path).textOr key default = s.textOr (path ++ "." ++ key) default) ∧
      (∀ kind, (s.under path).integer kind key = s.integer kind (path ++ "." ++ key)) ∧
      (∀ kind default, (s.under path).integerOr kind key default =
        s.integerOr kind (path ++ "." ++ key) default) ∧
      (∀ default, (s.under path).flagOr key default =
        s.flagOr (path ++ "." ++ key) default)) := by
  constructor
  · intro inner
    exact ⟨root_under_under h inner, toList_under_under h inner⟩
  · intro key
    have hagree := agreeAt_under h key
    exact ⟨hagree.has_eq, hagree.text_eq, hagree.textOr_eq, hagree.integer_eq,
      hagree.integerOr_eq, hagree.flagOr_eq⟩

/-- Settings with keys that start alike, and one that is no number. -/
def listeners : Settings :=
  ofList [("web.http", "on"), ("web.http.port", " 8181 "), ("web.httpx.port", "none")]

theorem under_listeners : listeners.absolute "web" ≠ "" ∧
    ((listeners.under "web").under "http").entries.toList =
      (listeners.under "web.http").entries.toList ∧
    (listeners.under "web").integer .long "http.port" = .ok 8181 ∧
    (listeners.under "web").integer .long "httpx.port" =
      .error (.unparseable "web.httpx.port" "none" "long") := by
  have hne : listeners.absolute "web" ≠ "" := by decide
  obtain ⟨hunder, hkeys⟩ := under_reads_longer_key listeners "web" hne
  refine ⟨hne, (hunder "http").2, ?_, ?_⟩
  · rw [(hkeys "http.port").2.2.2.1]
    decide +kernel
  · rw [(hkeys "httpx.port").2.2.2.1]
    decide +kernel

end Settings

end ServiceHost
