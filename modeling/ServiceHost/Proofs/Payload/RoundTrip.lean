import ServiceHost.Payload
import ServiceHost.Proofs.Json.Brackets

/-!
# Round trips — what is written is read back

A value is read back from the front of a text that does not go on with it, by a reader that may
still open as many brackets as the value has inside each other (`ReadsAs`). That is what lets a
round trip be lifted from the items of a list to the list, and from the values of a map to the map.
A map is read back with the same entries in the same order, which is all that can be told of it.
-/

set_option autoImplicit false

namespace ServiceHost

namespace Payload

variable {α : Type} [Payload α] {levels : Nat}

/-- A reader of these levels reads the written value as another one, whatever follows it. -/
structure ReadsAs (levels : Nat) (value back : α) : Prop where
  starts : Json.Starts (toJson value).text
  reads : ∀ rest, Json.Ends rest →
    reader levels ((toJson value).text ++ rest) = .ok (back, rest)

theorem ReadsAs.read_whole {value back : α} (h : ReadsAs Json.nestingLimit value back) :
    read α (write value) = .ok back := by
  have hread := h.reads [] Json.ends_nil
  rw [List.append_nil] at hread
  rw [read, Json.readWhole, write, Json.render, String.toList_ofList, hread]
  rfl

/-! ## Scalars -/

theorem readsAs_string (levels : Nat) (text : String) : ReadsAs levels text text where
  starts := Json.starts_cons (by decide) (by decide)
  reads rest _ := by
    show reader levels (Json.stringText text ++ rest) = _
    rw [Json.stringText_append]
    exact Json.readStringRest_written text rest

theorem starts_integerText (n : Int) : Json.Starts (Json.integerText n) := by
  obtain ⟨c, rest, heq, hstarts⟩ := Json.exists_integerText_eq_cons n
  rw [heq]
  exact Json.starts_of_startsNumber hstarts

theorem readIntegerBetween_integerText {least greatest n : Int} {rest : List Char}
    (hleast : Int64.minValue.toInt ≤ least) (hgreatest : greatest < UInt64.size) (hlow : least ≤ n)
    (hhigh : n ≤ greatest) (hrest : Json.Ends rest) :
    readIntegerBetween least greatest (Json.integerText n ++ rest) = .ok (n, rest) := by
  obtain ⟨c, cs, heq, hspace, -⟩ := starts_integerText n
  obtain ⟨first, others, heq', hnumber⟩ := Json.exists_integerText_eq_cons n
  obtain ⟨rfl, rfl⟩ := List.cons.inj (heq.symm.trans heq')
  have hread := Json.readNumber_integerText (by omega) (by omega) hrest (n := n)
  rw [heq, List.cons_append] at hread ⊢
  rw [readIntegerBetween, Json.skipSpace_cons_of_not_isSpace hspace]
  dsimp only
  rw [if_pos hnumber, hread]
  dsimp only
  rw [if_pos ⟨hlow, hhigh⟩]

theorem readIntegerBetween_natural {size n : Nat} {rest : List Char} (hsize : size ≤ UInt64.size)
    (hlt : n < size) (hrest : Json.Ends rest) :
    readIntegerBetween 0 (size - 1) (Json.integerText n ++ rest) = .ok ((n : Int), rest) := by
  refine readIntegerBetween_integerText (by decide) ?_ (by omega) (by omega) hrest
  rw [UInt64.size] at hsize ⊢
  omega

theorem readsAs_uint32 (levels : Nat) (n : UInt32) : ReadsAs levels n n where
  starts := starts_integerText n.toNat
  reads rest hrest := by
    show (readIntegerBetween 0 (UInt32.size - 1) (Json.integerText n.toNat ++ rest)).map _ = _
    rw [readIntegerBetween_natural (by decide) n.toNat_lt hrest]
    simp [Except.map]

theorem readsAs_uint64 (levels : Nat) (n : UInt64) : ReadsAs levels n n where
  starts := starts_integerText n.toNat
  reads rest hrest := by
    show (readIntegerBetween 0 (UInt64.size - 1) (Json.integerText n.toNat ++ rest)).map _ = _
    rw [readIntegerBetween_natural (by decide) n.toNat_lt hrest]
    simp [Except.map]

theorem readsAs_int64 (levels : Nat) (n : Int64) : ReadsAs levels n n where
  starts := starts_integerText n.toInt
  reads rest hrest := by
    have hread := readIntegerBetween_integerText (n := n.toInt) (by decide) (by decide)
      n.minValue_le_toInt n.toInt_le hrest
    show (readIntegerBetween Int64.minValue.toInt Int64.maxValue.toInt
      (Json.integerText n.toInt ++ rest)).map _ = _
    rw [hread]
    simp [Except.map]

/-! ## Containers -/

theorem readsAs_none (levels : Nat) : ReadsAs levels (none : Option α) none where
  starts := Json.starts_cons (by decide) (by decide)
  reads _ _ := rfl

/-- A value that is not written as a word is read back as present. -/
theorem ReadsAs.some {value back : α} (h : ReadsAs levels value back)
    (hword : (toJson value).text.head? ≠ some 'n') :
    ReadsAs levels (Option.some value) (Option.some back) where
  starts := h.starts
  reads rest hrest := by
    obtain ⟨c, cs, heq, hspace, -⟩ := h.starts
    have hread := h.reads rest hrest
    show readOptional levels ((toJson value).text ++ rest) = _
    rw [heq] at hread hword ⊢
    rw [List.cons_append] at hread ⊢
    rw [readOptional, Json.skipSpace_cons_of_not_isSpace hspace]
    split
    · rename_i h
      cases h
      exact absurd rfl hword
    · rw [hread]
      rfl

omit [Payload α] in
theorem readBracketed_cons {bracket : Char} (hspace : Json.isSpace bracket = false)
    (inside : Nat → Json.Reader α) (levels : Nat) (cs : List Char) :
    readBracketed bracket inside (levels + 1) (bracket :: cs) = inside levels cs := by
  rw [readBracketed, Json.skipSpace_cons_of_not_isSpace hspace]
  dsimp only
  rw [if_neg (not_not_intro rfl)]

/-- A list is read back if its items are. -/
theorem readsAs_list {items : List α} (h : ∀ item ∈ items, ReadsAs levels item item) :
    ReadsAs (levels + 1) items items where
  starts := Json.starts_cons (by decide) (by decide)
  reads rest _ := by
    have htakes : ∀ taken, ∀ item ∈ items,
        Json.TakesItem (readItem levels) taken (toJson item) (item :: taken) := by
      intro taken item hmem
      refine ⟨(h item hmem).starts, fun rest hrest => ?_⟩
      rw [readItem, (h item hmem).reads rest hrest]
      rfl
    have halong :
        Json.Along (Json.TakesItem (readItem levels)) [] (items.map toJson) items.reverse := by
      have hfold := (Json.along_foldl htakes []).map
      rwa [List.foldl_flip_cons_eq_append', List.append_nil] at hfold
    have hread := Json.foldItems_itemsText halong rest
    show readBracketed '[' _ (levels + 1) ('[' :: (Json.itemsText (items.map toJson) ++ rest)) = _
    rw [readBracketed_cons (by decide), hread]
    simp [Except.map]

omit [Payload α] in
/-- Entries that are put into an empty map in their order make up the map that they are of. -/
theorem toList_foldl_insert (members : Std.TreeMap String α) :
    (members.toList.foldl (fun taken entry => taken.insert entry.1 entry.2)
      (∅ : Std.TreeMap String α)).toList = members.toList := by
  have hequiv : (Std.TreeMap.ofList members.toList).Equiv members := by
    refine Std.TreeMap.Equiv.of_forall_constGet?_eq fun name => ?_
    cases hname : members[name]? with
    | some value =>
      exact Std.TreeMap.getElem?_ofList_of_mem Std.ReflCmp.compare_self
        Std.TreeMap.distinct_keys_toList (Std.TreeMap.mem_toList_iff_getElem?_eq_some.mpr hname)
    | none =>
      refine Std.TreeMap.getElem?_ofList_of_contains_eq_false ?_
      rw [Std.TreeMap.map_fst_toList_eq_keys, Std.TreeMap.contains_keys,
        ← Std.TreeMap.isSome_getElem?_eq_contains, hname]
      rfl
  exact Std.TreeMap.equiv_iff_toList_eq.mp (Std.TreeMap.ofList_equiv_foldl.symm.trans hequiv)

/-- A map is read back with its entries if its values are read back. -/
theorem exists_readsAs_map {members : Std.TreeMap String α}
    (h : ∀ entry ∈ members.toList, ReadsAs levels entry.2 entry.2) :
    ∃ back : Std.TreeMap String α, ReadsAs (levels + 1) members back ∧
      back.toList = members.toList := by
  refine ⟨_, ⟨Json.starts_cons (by decide) (by decide), ?_⟩, toList_foldl_insert members⟩
  intro rest _
  have htakes : ∀ taken, ∀ entry ∈ members.toList, Json.TakesMember (readEntry levels) taken
      (entry.1, toJson entry.2) (taken.insert entry.1 entry.2) := by
    intro taken entry hmem rest hrest
    rw [readEntry, Json.expectColon_colon]
    show (reader levels _ >>= _) = _
    rw [(h entry hmem).reads rest hrest]
    rfl
  have hread := Json.foldMembers_membersText (Json.along_foldl htakes ∅).map rest
  show readBracketed '\x7b' _ (levels + 1) ('\x7b' :: (Json.membersText _ ++ rest)) = _
  rw [readBracketed_cons (by decide)]
  exact hread

end Payload

end ServiceHost
