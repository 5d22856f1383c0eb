import TypedTx.Proofs.Document

/-!
# Documents are read back from their JSON objects

The keys of a document are distinct, so each of them finds its own member in the object
that is written, and finds `null` where the member is absent. A document only looks at
these keys: it is read alike from every object that has the same values for them, in
whatever order and with whatever else.
-/

namespace TypedTx

namespace Json

variable {members : List (String × Option Json)} {key : String} {x : Option Json}

/-- The entries of an object, without the members that are absent. -/
def present (members : List (String × Option Json)) : List (String × Json) :=
  members.filterMap fun member => member.2.map fun value => (member.1, value)

theorem lookup_present_cons (name : String) (x : Option Json)
    (members : List (String × Option Json)) :
    (present ((name, x) :: members)).lookup key =
      if key = name then x.or ((present members).lookup key)
      else (present members).lookup key := by
  cases x with
  | none => exact (ite_self _).symm
  | some value =>
      change ((name, value) :: present members).lookup key = _
      by_cases h : key = name
      · subst h
        rw [List.lookup_cons_self, if_pos rfl, Option.some_or]
      · rw [List.lookup_cons, beq_eq_false_iff_ne.mpr h, if_neg h]

theorem lookup_present_of_notMem (h : key ∉ members.map Prod.fst) :
    (present members).lookup key = none := by
  induction members with
  | nil => rfl
  | cons member members ih =>
      obtain ⟨hne, hrest⟩ := List.ne_and_not_mem_of_not_mem_cons h
      rw [lookup_present_cons, if_neg hne, ih hrest]

/-- Among members of distinct names, each name finds its own. -/
theorem lookup_present (hnodup : (members.map Prod.fst).Nodup) (hmember : (key, x) ∈ members) :
    (present members).lookup key = x := by
  induction members with
  | nil => exact absurd hmember List.not_mem_nil
  | cons member members ih =>
      obtain ⟨hname, hnodup⟩ := List.nodup_cons.mp hnodup
      rw [lookup_present_cons]
      obtain rfl | hrest := List.mem_cons.mp hmember
      · rw [if_pos rfl, lookup_present_of_notMem hname, Option.or_none]
      · have hne : key ≠ member.1 := by
          rintro rfl
          exact hname (List.mem_map.mpr ⟨_, hrest, rfl⟩)
        rw [if_neg hne, ih hnodup hrest]

theorem getKey_present (hnodup : (members.map Prod.fst).Nodup) (hmember : (key, x) ∈ members) :
    getKey (present members) key = x.getD .null := by
  rw [getKey, lookup_present hnodup hmember]

theorem optionalString?_map_string (text : Option String) :
    ((text.map string).getD .null).optionalString? = some text := by
  cases text <;> rfl

theorem strings?_map_string (texts : List String) :
    (array (texts.map string)).strings? = some texts :=
  Success.mapM_map fun _ _ => rfl

end Json

namespace Document

/-- The members of the object of a document. -/
def members (doc : Document) : List (String × Option Json) :=
  [("type", doc.kind.map .string), ("to", doc.recipient.map .string),
    ("data", doc.data.map .string),
    ("accessList", doc.accessList.map fun entries => .array (entries.map accessTextToJson))] ++
    Quantity.all.map fun q => (q.name, (doc.get q).map .string)

theorem toJson_eq (doc : Document) : doc.toJson = .object (Json.present doc.members) := by
  rw [members, Json.present, List.filterMap_append, List.filterMap_map,
    List.filterMap_eq_flatMap_toList _ Quantity.all]
  refine congrArg Json.object (congrArg₂ (· ++ ·) ?_ ?_)
  · cases doc.kind <;> cases doc.recipient <;> cases doc.data <;> cases doc.accessList <;> rfl
  · refine congrArg (List.flatMap · Quantity.all) (funext fun q => ?_)
    dsimp only [Function.comp]
    cases doc.get q <;> rfl

theorem nodup_members (doc : Document) : (doc.members.map Prod.fst).Nodup := by
  have hnames : (["type", "to", "data", "accessList"] ++ Quantity.all.map Quantity.name).Nodup := by
    decide
  rw [members, List.map_append, List.map_map]
  exact hnames

theorem accessTextOfJson?_accessTextToJson (entry : AccessText) :
    accessTextOfJson? (accessTextToJson entry) = some entry := by
  change (do
    let storageKeys ← (Json.array (entry.storageKeys.map .string)).strings?
    some (AccessText.mk entry.address storageKeys)) = some entry
  rw [Json.strings?_map_string]
  rfl

theorem accessListOfJson?_map (list : Option (List AccessText)) :
    accessListOfJson? ((list.map fun entries =>
      Json.array (entries.map accessTextToJson)).getD .null) = some list := by
  cases list with
  | none => rfl
  | some entries =>
      change ((entries.map accessTextToJson).mapM accessTextOfJson? >>= fun entries =>
        some (some entries)) = _
      rw [Success.mapM_map fun entry _ => accessTextOfJson?_accessTextToJson entry]
      rfl

section

variable {entries : List (String × Json)}

theorem exists_quantitiesOfJson? {t : Quantities String}
    (h : ∀ q : Quantity, Json.getKey entries q.name = ((t.get q).map Json.string).getD .null)
    (qs : List Quantity) (acc : Quantities String) :
    ∃ u, quantitiesOfJson? entries qs acc = some u ∧
      ∀ q, u.get q = if q ∈ qs then t.get q else acc.get q := by
  induction qs generalizing acc with
  | nil => exact ⟨acc, rfl, fun q => rfl⟩
  | cons p qs ih =>
      obtain ⟨u, hu, hget⟩ := ih (acc.set p (t.get p))
      refine ⟨u, ?_, ?_⟩
      · rw [quantitiesOfJson?, h, Json.optionalString?_map_string]
        exact hu
      · intro q
        rw [hget]
        by_cases hqp : q = p
        · subst hqp
          simp
        · simp [hqp, Quantities.get_set_of_ne]

theorem quantitiesOfJson?_all {t : Quantities String}
    (h : ∀ q : Quantity, Json.getKey entries q.name = ((t.get q).map Json.string).getD .null) :
    quantitiesOfJson? entries Quantity.all {} = some t := by
  obtain ⟨u, hu, hget⟩ := exists_quantitiesOfJson? h Quantity.all {}
  have heq : u = t := by
    apply Quantities.ext_get
    intro q
    rw [hget, if_pos (Quantity.mem_all q)]
  rw [hu, heq]

/-- An object is read as a document if the keys of the document have its values. The order
of the keys does not matter, nor do others. -/
theorem ofEntries?_of_getKey {doc : Document}
    (h : ∀ member ∈ doc.members, Json.getKey entries member.1 = member.2.getD .null) :
    ofEntries? entries = some doc := by
  have hkind := h ("type", doc.kind.map .string) (by simp [members])
  have hrecipient := h ("to", doc.recipient.map .string) (by simp [members])
  have hdata := h ("data", doc.data.map .string) (by simp [members])
  have haccessList := h ("accessList",
    doc.accessList.map fun entries => .array (entries.map accessTextToJson)) (by simp [members])
  have hquantities : quantitiesOfJson? entries Quantity.all {} = some doc.toQuantities := by
    apply quantitiesOfJson?_all
    intro q
    exact h (q.name, (doc.get q).map .string)
      (List.mem_append_right _ (List.mem_map_of_mem (Quantity.mem_all q)))
  rw [ofEntries?, hkind, hrecipient, hdata, haccessList, Json.optionalString?_map_string,
    Json.optionalString?_map_string, Json.optionalString?_map_string, accessListOfJson?_map,
    hquantities]
  rfl

theorem name_mem_keys (q : Quantity) : q.name ∈ keys := by
  cases q <;> decide

theorem quantitiesOfJson?_congr {others : List (String × Json)}
    (h : ∀ key ∈ keys, Json.getKey entries key = Json.getKey others key) (qs : List Quantity)
    (acc : Quantities String) :
    quantitiesOfJson? entries qs acc = quantitiesOfJson? others qs acc := by
  induction qs generalizing acc with
  | nil => rfl
  | cons q qs ih => simp only [quantitiesOfJson?, h q.name (name_mem_keys q), ih]

/-- Nothing but the values of the keys is looked at. -/
theorem ofEntries?_congr {others : List (String × Json)}
    (h : ∀ key ∈ keys, Json.getKey entries key = Json.getKey others key) :
    ofEntries? entries = ofEntries? others := by
  rw [ofEntries?, ofEntries?, h "type" (by decide), h "to" (by decide), h "data" (by decide),
    h "accessList" (by decide), quantitiesOfJson?_congr h]

end

theorem lookup_zip_map (f : String → Json) {names : List String} {key : String}
    (h : key ∈ names) : (names.zip (names.map f)).lookup key = some (f key) := by
  induction names with
  | nil => exact absurd h List.not_mem_nil
  | cons name names ih =>
      rw [List.map_cons, List.zip_cons_cons]
      by_cases hname : key = name
      · rw [hname, List.lookup_cons_self]
      · rw [List.lookup_cons, beq_eq_false_iff_ne.mpr hname]
        exact ih (List.mem_of_ne_of_mem hname h)

/-- The array of the values that an object has for the keys holds the same document. -/
theorem ofJson?_array (entries : List (String × Json)) :
    ofJson? (.array (keys.map (Json.getKey entries))) = ofJson? (.object entries) := by
  rw [ofJson?, ofJson?, List.length_map, if_pos le_rfl]
  apply ofEntries?_congr
  intro key hkey
  rw [Json.getKey, lookup_zip_map _ hkey, Option.getD_some]

/-- A document is read back from the object that is written for it. -/
theorem ofJson?_toJson (doc : Document) : ofJson? doc.toJson = some doc := by
  rw [toJson_eq]
  apply ofEntries?_of_getKey
  intro member hmember
  exact Json.getKey_present doc.nodup_members hmember

/-- Nothing of a draft is lost in its document, nor anything of the document in its JSON
object. -/
theorem ofDraft_roundTrip (d : Draft) :
    (ofDraft d).draft = .ok d ∧ ofJson? (ofDraft d).toJson = some (ofDraft d) :=
  ⟨draft_ofDraft d, ofJson?_toJson (ofDraft d)⟩

end Document
end TypedTx
