import Envelope.Proofs.Field.Relocation

set_option autoImplicit false

namespace Envelope

-- A result as far as order leaves it open: its value with the keys in order, or that there is none.
def Json.contentOf? {ε : Type} (result : Except ε Json) : Option Json :=
  result.toOption.map Json.sortKeys

theorem Json.content_of?_eq_iff {ε : Type} (one other : Except ε Json) :
    contentOf? one = contentOf? other ↔
      ((∃ value, one = .ok value) ↔ ∃ value, other = .ok value) ∧
        ∀ value new, one = .ok value → other = .ok new → sameContent value new = true := by
  cases one <;> cases other <;> simp [contentOf?, Except.toOption, sameContent]

theorem Json.text_sorted (members : Table Json) (differ : (Table.keys members).Nodup) (key : String) :
    (Table.get? (Table.sorted (sortMembers members)) key).bind text? =
      (Table.get? members key).bind text? := by
  rw [get?_sorted members differ, Option.bind_map]
  exact congrArg _ (funext text?_sort_keys)

theorem map_m_eq_ite {α β : Type} (f : α → Option β) (g : α → β)
    (agree : ∀ a b, f a = some b → g a = b) (items : List α) :
    items.mapM f = if ∀ item ∈ items, (f item).isSome then some (items.map g) else none := by
  induction items with
  | nil => rfl
  | cons item rest ih =>
    rw [List.mapM_cons, ih]
    simp only [List.forall_mem_cons, List.map_cons]
    cases here : f item with
    | none => rfl
    | some value =>
      rw [agree item value here]
      by_cases others : ∀ other ∈ rest, (f other).isSome
      · rw [if_pos others, if_pos ⟨rfl, others⟩]
        rfl
      · rw [if_neg others, if_neg fun all => others all.2]
        rfl

namespace Opening

theorem open_each_congr (opening other : Opening) (sites : List Marker.Site)
    (same : ∀ site ∈ sites,
      opening.openMarker site.members site.ref = other.openMarker site.members site.ref) :
    opening.openEach sites = other.openEach sites := by
  induction sites with
  | nil => rfl
  | cons site rest ih =>
    obtain ⟨here, later⟩ := List.forall_mem_cons.mp same
    rw [openEach, openEach, here, ih later]

-- Rows count by their references alone: a marker gets the same of rows that answer it with the same.
theorem open_marker_of_row? (opening : Opening) (rows : List Record) (members : Table Json)
    (ref : String) (same : opening.row? ref = row? { opening with rows := rows } ref) :
    opening.openMarker members ref = openMarker { opening with rows := rows } members ref := by
  rw [openMarker, openMarker, same]
  rfl

theorem row?_eq_some_iff_mem (opening : Opening) (ref : String) (row : Record)
    (distinct : (opening.rows.map Record.refId).Nodup) :
    opening.row? ref = some row ↔ row ∈ opening.rows ∧ row.refId = ref := by
  rw [row?_eq_some_iff]
  constructor
  · exact mem_of_last_row opening.rows ref row
  · rintro ⟨member, rfl⟩
    exact last_row_of_mem opening.rows row member distinct

section

variable (opening : Opening)

def content? (value : Json) : Option Json :=
  Json.contentOf? (opening.rebuild value)

def content (value : Json) : Json :=
  (opening.content? value).getD .null

theorem content?_marker (members : Table Json) (ref : String)
    (marked : Marker.refOf? members = some ref) :
    opening.content? (.obj members) = Json.contentOf? (opening.openMarker members ref) := by
  rw [content?, rebuild, marked]

theorem content_of_content? (value new : Json) (found : opening.content? value = some new) :
    opening.content value = new := by
  rw [content, found, Option.getD_some]

theorem content_congr (value other : Json) (same : opening.content? value = opening.content? other) :
    opening.content value = opening.content other := by
  rw [content, content, same]

theorem rebuild_items_content (items : List Json) :
    (opening.rebuildItems items).toOption.map Json.sortItems = items.mapM opening.content? := by
  induction items with
  | nil => rfl
  | cons item rest ih =>
    rw [List.mapM_cons, ← ih, rebuildItems, content?]
    cases opening.rebuild item <;> cases opening.rebuildItems rest <;> rfl

theorem rebuild_members_content (members : Table Json) :
    (opening.rebuildMembers members).toOption.map Json.sortMembers =
      members.mapM fun member => (opening.content? member.2).map (Prod.mk member.1) := by
  induction members with
  | nil => rfl
  | cons member rest ih =>
    rw [List.mapM_cons, ← ih, rebuildMembers, content?]
    cases opening.rebuild member.2 <;> cases opening.rebuildMembers rest <;> rfl

theorem content?_arr (items : List Json) :
    opening.content? (.arr items) =
      if ∀ item ∈ items, (opening.content? item).isSome then
        some (.arr (items.map opening.content))
      else none := by
  have listed : opening.content? (.arr items) = (items.mapM opening.content?).map .arr := by
    rw [← rebuild_items_content, content?, rebuild]
    cases opening.rebuildItems items <;> rfl
  rw [listed, map_m_eq_ite _ _ (content_of_content? opening), apply_ite (Option.map Json.arr)]
  rfl

theorem content?_obj (members : Table Json) (plain : Marker.refOf? members = none) :
    opening.content? (.obj members) =
      if ∀ member ∈ members, (opening.content? member.2).isSome then
        some (.obj (Table.sorted (members.map fun member => (member.1, opening.content member.2))))
      else none := by
  have listed : opening.content? (.obj members) =
      (members.mapM fun member => (opening.content? member.2).map (Prod.mk member.1)).map
        fun contents => .obj (Table.sorted contents) := by
    rw [← rebuild_members_content, content?, rebuild, plain]
    cases opening.rebuildMembers members <;> rfl
  have agree : ∀ (member entry : String × Json),
      (opening.content? member.2).map (Prod.mk member.1) = some entry →
        (member.1, opening.content member.2) = entry := by
    intro member entry found
    obtain ⟨value, there, rfl⟩ := Option.map_eq_some_iff.mp found
    rw [content_of_content? opening member.2 value there]
  rw [listed, map_m_eq_ite _ _ agree, apply_ite (Option.map _)]
  simp only [Option.isSome_map, Option.map_some, Option.map_none]

theorem open_marker_sorted (members : Table Json) (ref : String)
    (differ : (Table.keys members).Nodup) :
    opening.openMarker (Table.sorted (Json.sortMembers members)) ref =
      opening.openMarker members ref := by
  have hash : Marker.hashOf? (Table.sorted (Json.sortMembers members)) = Marker.hashOf? members :=
    Json.text_sorted members differ Marker.hashKey
  have same : ∀ row, hashMatches (Table.sorted (Json.sortMembers members)) row =
      hashMatches members row := fun row => by rw [hashMatches, hashMatches, hash]
  simp only [openMarker, same]

theorem content?_sort_keys (value : Json) (wellFormed : value.WellFormed) :
    opening.content? value.sortKeys = opening.content? value := by
  induction value with
  | null | bool | num | str => rfl
  | arr items ih =>
    have inner := (Json.items_well_formed_iff items).mp wellFormed
    have same : ∀ item ∈ items, opening.content? item.sortKeys = opening.content? item :=
      fun item member => ih item member (inner item member)
    have each : (∀ item ∈ items.map Json.sortKeys, (opening.content? item).isSome) ↔
        ∀ item ∈ items, (opening.content? item).isSome :=
      List.forall_mem_map.trans (forall₂_congr fun item member => by rw [same item member])
    have contents : (items.map Json.sortKeys).map opening.content = items.map opening.content := by
      rw [List.map_map]
      exact List.map_congr_left fun item member => content_congr opening _ item (same item member)
    rw [Json.sortKeys, Json.sort_items_eq_map, content?_arr, content?_arr, contents]
    exact if_congr each rfl rfl
  | obj members ih =>
    obtain ⟨differ, inner⟩ := wellFormed
    rw [Json.members_well_formed_iff] at inner
    have ref : Marker.refOf? (Table.sorted (Json.sortMembers members)) = Marker.refOf? members :=
      Json.text_sorted members differ Marker.refKey
    cases marked : Marker.refOf? members with
    | some name =>
      rw [Json.sortKeys, content?_marker opening _ name (ref.trans marked),
        content?_marker opening members name marked, open_marker_sorted opening members name differ]
    | none =>
      have same : ∀ member ∈ members, opening.content? member.2.sortKeys = opening.content? member.2 :=
        fun member present => ih member present (inner member present)
      have each : (∀ member ∈ Table.sorted (Json.sortMembers members),
            (opening.content? member.2).isSome) ↔
          ∀ member ∈ members, (opening.content? member.2).isSome := by
        simp only [Json.mem_sorted_iff members differ, forall_exists_index, and_imp,
          forall_apply_eq_imp_iff₂]
        exact forall₂_congr fun member present => by rw [same member present]
      have contents : (Json.sortMembers members).map
            (fun member => (member.1, opening.content member.2)) =
          members.map fun member => (member.1, opening.content member.2) := by
        rw [Json.sort_members_eq_map, List.map_map]
        exact List.map_congr_left fun member present =>
          congrArg (Prod.mk member.1) (content_congr opening _ member.2 (same member present))
      rw [Json.sortKeys, content?_obj opening _ (ref.trans marked), content?_obj opening members marked,
        Table.sorted_map, Table.sorted_of_ascending _ (Table.ascending_sorted _), ← Table.sorted_map,
        contents]
      exact if_congr each rfl rfl

end

end Opening

-- Lists of rows that have the same rows for the markers of a document, in any order.
def Reordered (document : Json) (rows others : List Record) : Prop :=
  ∃ common extra more, rows.Perm (common ++ extra) ∧ others.Perm (common ++ more) ∧
    ∀ row ∈ extra ++ more, ∀ site ∈ Marker.sites document, site.ref ≠ row.refId

theorem row?_eq_some_iff_common (opening : Opening) (common extra : List Record) (ref : String)
    (row : Record) (listed : opening.rows.Perm (common ++ extra))
    (distinct : (opening.rows.map Record.refId).Nodup) (unnamed : ∀ other ∈ extra, ref ≠ other.refId) :
    opening.row? ref = some row ↔ row ∈ common ∧ row.refId = ref := by
  rw [Opening.row?_eq_some_iff_mem opening ref row distinct, listed.mem_iff, List.mem_append]
  constructor
  · rintro ⟨inCommon | inExtra, same⟩
    · exact ⟨inCommon, same⟩
    · exact absurd same.symm (unnamed row inExtra)
  · exact fun ⟨inCommon, same⟩ => ⟨.inl inCommon, same⟩

section

variable (document : Json) (rows others : List Record) (reordered : Reordered document rows others)
  (distinct : (rows.map Record.refId).Nodup) (otherDistinct : (others.map Record.refId).Nodup)

include reordered distinct otherDistinct

theorem row?_of_reordered (dek : Dek) (tenant : String) (site : Marker.Site)
    (member : site ∈ Marker.sites document) :
    Opening.row? ⟨dek, tenant, rows⟩ site.ref = Opening.row? ⟨dek, tenant, others⟩ site.ref := by
  obtain ⟨common, extra, more, listed, otherListed, unnamed⟩ := reordered
  rw [List.forall_mem_append] at unnamed
  apply Option.ext
  intro row
  rw [row?_eq_some_iff_common ⟨dek, tenant, rows⟩ common extra site.ref row listed distinct
      fun other present => unnamed.1 other present site member,
    row?_eq_some_iff_common ⟨dek, tenant, others⟩ common more site.ref row otherListed otherDistinct
      fun other present => unnamed.2 other present site member]

theorem rebuild_of_reordered (dek : Dek) (tenant : String) (wellFormed : document.WellFormed) :
    Opening.rebuild ⟨dek, tenant, rows⟩ document = Opening.rebuild ⟨dek, tenant, others⟩ document := by
  have each := Opening.open_each_congr ⟨dek, tenant, rows⟩ ⟨dek, tenant, others⟩
    (Marker.sites document) fun site member =>
      Opening.open_marker_of_row? ⟨dek, tenant, rows⟩ others site.members site.ref
        (row?_of_reordered document rows others reordered distinct otherDistinct dek tenant site member)
  rw [Opening.rebuild_eq _ [] document wellFormed, Opening.rebuild_eq _ [] document wellFormed]
  exact congrArg (Except.map _) each

theorem resolved_of_reordered (ring : Keyring) (tenant : String) (stored : StoredDek)
    (wellFormed : document.WellFormed) (given : rows ≠ []) (otherGiven : others ≠ []) :
    resolved ring document tenant rows stored = resolved ring document tenant others stored := by
  simp only [resolved, List.isEmpty_iff, if_neg given, if_neg otherGiven,
    rebuild_of_reordered document rows others reordered distinct otherDistinct _ tenant wellFormed]

end

theorem content_of?_resolved (ring : Keyring) (document other : Json) (tenant : String)
    (rows : List Record) (stored : StoredDek) (wellFormed : document.WellFormed)
    (otherWellFormed : other.WellFormed) (same : Json.sameContent document other = true) :
    Json.contentOf? (resolved ring document tenant rows stored) =
      Json.contentOf? (resolved ring other tenant rows stored) := by
  rw [Json.sameContent, decide_eq_true_eq] at same
  have rebuilt : ∀ dek, Opening.content? ⟨dek, tenant, rows⟩ document =
      Opening.content? ⟨dek, tenant, rows⟩ other := by
    intro dek
    rw [← Opening.content?_sort_keys _ document wellFormed, same, Opening.content?_sort_keys _ other
      otherWellFormed]
  by_cases empty : rows = []
  · simp only [resolved, List.isEmpty_iff, if_pos empty]
    exact congrArg some same
  · simp only [resolved, List.isEmpty_iff, if_neg empty]
    cases stored.wrappedDek? with
    | none => rfl
    | some wrapped =>
      cases unwrapped : ring.unwrap wrapped with
      | error cause => simp only [unwrapped]
      | ok dek =>
        simp only [unwrapped]
        exact rebuilt dek

/-- A document resolves to the same content with its rows in another order, with rows that it does not
name, and with the members of its objects in another order. For the document itself the error is the
same too. -/
theorem resolve_reordered (ring : Keyring) (document other : Json) (tenant : String)
    (rows others : List Record) (stored : StoredDek) (host twinHost : Host)
    (wellFormed : document.WellFormed) (otherWellFormed : other.WellFormed)
    (same : Json.sameContent document other = true) (given : rows ≠ []) (otherGiven : others ≠ [])
    (distinct : (rows.map Record.refId).Nodup) (otherDistinct : (others.map Record.refId).Nodup)
    (reordered : Reordered document rows others) :
    ((∃ value, (resolve ring document tenant rows stored host).1 = .ok value) ↔
        ∃ value, (resolve ring other tenant others stored twinHost).1 = .ok value) ∧
      (∀ value new, (resolve ring document tenant rows stored host).1 = .ok value →
        (resolve ring other tenant others stored twinHost).1 = .ok new →
          Json.sameContent value new = true) ∧
      (document = other → (resolve ring document tenant rows stored host).1 =
        (resolve ring other tenant others stored twinHost).1) := by
  have moved := resolved_of_reordered document rows others reordered distinct otherDistinct ring tenant
    stored wellFormed given otherGiven
  have content := content_of?_resolved ring document other tenant others stored wellFormed
    otherWellFormed same
  rw [← moved] at content
  obtain ⟨succeeds, contents⟩ := (Json.content_of?_eq_iff _ _).mp content
  simp only [resolve_fst]
  exact ⟨succeeds, contents, fun unchanged => unchanged ▸ moved⟩

-- The small document as it was prepared, with its members in another order.
def shuffledDocument : Json :=
  .obj [("secret", .obj
      [("value", smallRecord.marker.toJson),
        ("qualifiers", .arr [.obj [("value", .str "encrypted"), ("type", .str "confidentiality")]])]),
    ("owner", .str "Ada")]

def strangeRecord : Record :=
  { smallRecord with refId := "elsewhere" }

theorem well_formed_shuffled_document : shuffledDocument.WellFormed := by
  simp [shuffledDocument, Json.WellFormed, Json.MembersWellFormed, Json.ItemsWellFormed, Table.keys,
    Marker.well_formed_to_json]

theorem well_formed_small_prepared : smallPrepared.document.WellFormed :=
  Tag.well_formed_rewrite (marks_outcome smallRing smallDocument "acme" smallHost
    well_formed_small_document) well_formed_small_document

theorem same_content_shuffled_document :
    Json.sameContent smallPrepared.document shuffledDocument = true := by
  rw [document_small_prepared, Json.sameContent, decide_eq_true_eq]
  rfl

theorem ref_id_ne_strange : smallRecord.refId ≠ strangeRecord.refId := by decide

theorem reordered_small_prepared :
    Reordered smallPrepared.document smallPrepared.records [strangeRecord, smallRecord] := by
  refine ⟨[smallRecord], [], [strangeRecord], ?_, List.Perm.swap _ _ _, ?_⟩
  · rw [records_small_prepared, List.append_nil]
  · rw [sites_small_prepared]
    simp only [List.nil_append, List.forall_mem_singleton]
    exact ref_id_ne_strange

theorem resolve_reordered_small :
    smallPrepared.document.WellFormed ∧ shuffledDocument.WellFormed ∧
      Json.sameContent smallPrepared.document shuffledDocument = true ∧
      smallPrepared.document ≠ shuffledDocument ∧
      Reordered smallPrepared.document smallPrepared.records [strangeRecord, smallRecord] ∧
      ∃ value, (resolve smallRing shuffledDocument "acme" [strangeRecord, smallRecord]
        (.ofPrepared smallPrepared) smallHost).1 = .ok value ∧
          Json.sameContent (smallDocument.rewrite (Tag.sorting smallDocument)) value = true := by
  have distinct : ([strangeRecord, smallRecord].map Record.refId).Nodup := by
    simpa using ref_id_ne_strange.symm
  have resolves : (resolve smallRing smallPrepared.document "acme" smallPrepared.records
      (.ofPrepared smallPrepared) smallHost).1 =
        .ok (smallDocument.rewrite (Tag.sorting smallDocument)) := by
    rw [resolve_fst]
    exact resolved_outcome smallRing smallDocument "acme" smallHost well_formed_small_document
      legible_small_document (by decide) sealable_small_document distinct_small_prepared
      (.inr unmarked_small_document)
  obtain ⟨succeeds, contents, -⟩ := resolve_reordered smallRing smallPrepared.document
    shuffledDocument "acme" smallPrepared.records [strangeRecord, smallRecord]
    (.ofPrepared smallPrepared) smallHost smallHost well_formed_small_prepared
    well_formed_shuffled_document same_content_shuffled_document (by simp [records_small_prepared])
    (by simp) distinct_small_prepared distinct reordered_small_prepared
  obtain ⟨value, new⟩ := succeeds.mp ⟨_, resolves⟩
  refine ⟨well_formed_small_prepared, well_formed_shuffled_document, same_content_shuffled_document, ?_,
    reordered_small_prepared, value, new, contents _ value resolves new⟩
  rw [document_small_prepared]
  simp [shuffledDocument]

end Envelope
