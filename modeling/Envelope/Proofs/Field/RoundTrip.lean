import Envelope.Proofs.Field.Preparing
import Envelope.Proofs.Field.Resolving
import Envelope.Proofs.Json.Reading

set_option autoImplicit false

namespace Envelope

namespace Opening

-- What is put at a place rebuilds to what is restored there, or the value stays and is no marker.
def Restores (opening : Opening) (entries : List (Pointer × Json)) (restoring : Json.Replacement)
    (pointer : Pointer) (value : Json) : Prop :=
  (∃ sealed restored, Json.putting entries pointer value = some sealed ∧
    restoring pointer value = some restored ∧ opening.rebuild sealed = .ok restored) ∨
  ((∀ entry ∈ entries, entry.1 ≠ pointer) ∧ restoring pointer value = none ∧
    ∀ members, value = .obj members →
      Marker.refOf? (Json.rewriteMembers (Json.putting entries) pointer members) = none)

theorem rebuild_items_rewrite (opening : Opening) (sealed restored : Json.Replacement)
    (pointer : Pointer) (start : Nat) (items : List Json)
    (each : ∀ (index : Nat) (item : Json), items[index]? = some item →
      opening.rebuild (Json.rewriteFrom sealed
          (pointer ++ [Pointer.indexSegment (start + index)]) item) =
        .ok (Json.rewriteFrom restored (pointer ++ [Pointer.indexSegment (start + index)]) item)) :
    opening.rebuildItems (Json.rewriteItems sealed pointer start items) =
      .ok (Json.rewriteItems restored pointer start items) := by
  induction items generalizing start with
  | nil => rfl
  | cons item rest ih =>
    have first := each 0 item rfl
    have others := ih (start + 1) fun index other present => by
      have later := each (index + 1) other present
      rwa [Nat.add_comm index 1, ← Nat.add_assoc] at later
    rw [Nat.add_zero] at first
    rw [Json.rewriteItems, rebuildItems, first, others]
    rfl

theorem rebuild_members_rewrite (opening : Opening) (sealed restored : Json.Replacement)
    (pointer : Pointer) (members : Table Json)
    (each : ∀ member ∈ members,
      opening.rebuild (Json.rewriteFrom sealed (pointer ++ [member.1]) member.2) =
        .ok (Json.rewriteFrom restored (pointer ++ [member.1]) member.2)) :
    opening.rebuildMembers (Json.rewriteMembers sealed pointer members) =
      .ok (Json.rewriteMembers restored pointer members) := by
  induction members with
  | nil => rfl
  | cons member rest ih =>
    have first := each member List.mem_cons_self
    have others := ih fun other present => each other (List.mem_cons_of_mem _ present)
    rw [Json.rewriteMembers, rebuildMembers, first, others]
    rfl

-- Below what is put somewhere nothing is asked, since only the marker is rebuilt there.
def RestoresInside (opening : Opening) (entries : List (Pointer × Json))
    (restoring : Json.Replacement) (pointer : Pointer) (value : Json) : Prop :=
  ∀ rest inner, value.at? rest = some inner →
    (∀ front segment back, rest = front ++ segment :: back →
      ∀ entry ∈ entries, entry.1 ≠ pointer ++ front) →
    opening.Restores entries restoring (pointer ++ rest) inner

theorem restores_inside_child (opening : Opening) (entries : List (Pointer × Json))
    (restoring : Json.Replacement) (pointer : Pointer) (value : Json) (segment : String)
    (child : Json) (restores : opening.RestoresInside entries restoring pointer value)
    (free : ∀ entry ∈ entries, entry.1 ≠ pointer) (childAt : value.child? segment = some child) :
    opening.RestoresInside entries restoring (pointer ++ [segment]) child := by
  intro rest inner there above
  rw [Pointer.append_singleton_append]
  apply restores (segment :: rest) inner ((Json.at?_of_child? _ _ child rest childAt).trans there)
  intro front other back split entry member
  cases front with
  | nil =>
    rw [List.append_nil]
    exact free entry member
  | cons head front =>
    cases split
    rw [← Pointer.append_singleton_append]
    exact above front other back rfl entry member

theorem rebuild_rewrite_from (opening : Opening) (entries : List (Pointer × Json))
    (restoring : Json.Replacement) (pointer : Pointer) (value : Json)
    (wellFormed : value.WellFormed)
    (restores : opening.RestoresInside entries restoring pointer value) :
    opening.rebuild (Json.rewriteFrom (Json.putting entries) pointer value) =
      .ok (Json.rewriteFrom restoring pointer value) := by
  induction value generalizing pointer with
  | null | bool | num | str =>
    have here := restores [] _ rfl (by simp)
    rw [List.append_nil] at here
    rcases here with ⟨sealed, restored, put, restore, rebuilt⟩ | ⟨free, kept, -⟩
    · rw [Json.rewrite_from_eq_some _ _ _ _ put, Json.rewrite_from_eq_some _ _ _ _ restore, rebuilt]
    · simp only [Json.rewriteFrom, Json.putting_eq_none entries pointer _ free, kept,
        Option.getD_none, rebuild]
  | arr items ih =>
    have here := restores [] _ rfl (by simp)
    rw [List.append_nil] at here
    rcases here with ⟨sealed, restored, put, restore, rebuilt⟩ | ⟨free, kept, -⟩
    · rw [Json.rewrite_from_eq_some _ _ _ _ put, Json.rewrite_from_eq_some _ _ _ _ restore, rebuilt]
    · have stays := Json.putting_eq_none entries pointer (.arr items) free
      have each := rebuild_items_rewrite opening (Json.putting entries) restoring pointer 0 items
        fun index item present => by
          have childAt := Json.child?_index_segment items index item present
          have member := List.mem_of_getElem? present
          rw [Nat.zero_add]
          exact ih item member _ ((Json.items_well_formed_iff items).mp wellFormed item member)
            (restores_inside_child opening entries restoring pointer _ _ item restores free childAt)
      rw [Json.rewrite_from_arr _ _ _ stays, Json.rewrite_from_arr _ _ _ kept, rebuild, each]
      rfl
  | obj members ih =>
    have here := restores [] _ rfl (by simp)
    rw [List.append_nil] at here
    rcases here with ⟨sealed, restored, put, restore, rebuilt⟩ | ⟨free, kept, unmarked⟩
    · rw [Json.rewrite_from_eq_some _ _ _ _ put, Json.rewrite_from_eq_some _ _ _ _ restore, rebuilt]
    · have stays := Json.putting_eq_none entries pointer (.obj members) free
      have each := rebuild_members_rewrite opening (Json.putting entries) restoring pointer members
        fun member present => by
          have childAt : (Json.obj members).child? member.1 = some member.2 :=
            Table.get?_of_mem members member.1 member.2 wellFormed.1 present
          exact ih member present _ ((Json.members_well_formed_iff members).mp wellFormed.2 member present)
            (restores_inside_child opening entries restoring pointer _ _ member.2 restores free childAt)
      rw [Json.rewrite_from_obj _ _ _ stays, Json.rewrite_from_obj _ _ _ kept, rebuild,
        unmarked members rfl, each]
      rfl

theorem open_marker_of_mem (opening : Opening) (site : Marker.Site) (row : Record)
    (member : row ∈ opening.rows) (distinct : (opening.rows.map Record.refId).Nodup)
    (ref : row.refId = site.ref) (hash : HashAgrees site.members row)
    (algorithm : row.algorithm = Marker.fieldAlgorithm) :
    opening.openMarker site.members site.ref = opening.openRow row :=
  open_marker_of_fits opening site row
    ⟨ref ▸ last_row_of_mem opening.rows row member distinct, hash, algorithm⟩

theorem rebuild_marker (opening : Opening) (record : Record) (member : record ∈ opening.rows)
    (distinct : (opening.rows.map Record.refId).Nodup)
    (algorithm : record.algorithm = Marker.fieldAlgorithm)
    (hash : record.markerHash = Marker.hashOfCiphertext record.ciphertext) :
    opening.rebuild record.marker.toJson = opening.openRow record :=
  open_marker_of_mem opening ⟨[], record.marker.members, record.refId⟩ record member distinct rfl
    (hash_agrees_members record hash) algorithm

theorem open_row_record_of (dek : Dek) (tenant : String) (rows : List Record) (now : Timestamp)
    (entropy : Entropy) (found : Pointer × Json) (restored : Json)
    (fits : Prepared.SealableAt tenant found)
    (read : Json.ofBytes? found.2.canonicalBytes = some restored) :
    Opening.openRow ⟨dek, tenant, rows⟩ (Prepared.recordOf dek tenant now entropy found) =
      .ok restored := by
  have opens := Sealed.open_with_sealed dek.key (entropy.next 12) _ _
    (Gcm.openable_of_sealable _ _ fits)
  simp only [openRow, Prepared.recordOf, Dek.openValue, opens, read]

end Opening

theorem Marker.ref_of?_rewrite_members (replacement : Json.Replacement) (pointer : Pointer)
    (members : Table Json)
    (textless : ∀ place value new, replacement place value = some new → new.text? = none)
    (unmarked : refOf? members = none) :
    refOf? (Json.rewriteMembers replacement pointer members) = none := by
  unfold refOf? at unmarked ⊢
  rw [Json.get?_rewrite_members]
  cases found : Table.get? members refKey with
  | none => rfl
  | some value =>
    rw [found] at unmarked
    exact Json.text?_rewrite_from replacement _ value (textless _ value) unmarked

def Tag.sorting (document : Json) : Json.Replacement := fun pointer value =>
  if Pointer.text pointer ∈ Tag.paths document then some value.sortKeys else none

theorem Tag.mem_paths_iff (document : Json) (pointer : Pointer) :
    Pointer.text pointer ∈ Tag.paths document ↔ ∃ found ∈ Tag.values document, found.1 = pointer := by
  simp only [paths, List.mem_map]
  constructor
  · rintro ⟨found, member, same⟩
    exact ⟨found, member, Pointer.text_injective _ _ same⟩
  · rintro ⟨found, member, rfl⟩
    exact ⟨found, member, rfl⟩

theorem reads_of_mem_values (document : Json) (wellFormed : document.WellFormed)
    (legible : ∀ n ∈ document.numbers, n.Legible) (shallow : document.depth ≤ Json.Raw.depthLimit)
    (found : Pointer × Json) (member : found ∈ Tag.values document) :
    Json.ofBytes? found.2.canonicalBytes = some found.2.sortKeys := by
  have there := Tag.at?_of_mem_values document found wellFormed member
  exact Json.of_bytes?_canonical_bytes found.2
    (Json.well_formed_of_at? document found.1 found.2 there wellFormed)
    (fun n inside => legible n (Json.mem_numbers_of_at? document found.1 found.2 there n inside))
    (Json.depth_le_of_at? document found.1 found.2 there _ shallow)

abbrev Prepared.openingFor (ring : Keyring) (document : Json) (tenant : String) (host : Host)
    (reader : String) : Opening :=
  ⟨⟨host.entropy.next 32⟩, reader, (outcome ring document tenant host).records⟩

section

variable (ring : Keyring) (document : Json) (tenant : String) (host : Host)

theorem placement_of_value (found : Pointer × Json) (member : found ∈ Tag.values document) :
    ∃ record ∈ (Prepared.outcome ring document tenant host).records, ∃ now entropy,
      record = Prepared.recordOf ⟨host.entropy.next 32⟩ tenant now entropy found ∧
        record.placement = (found.1, record.marker.toJson) := by
  obtain ⟨i, there⟩ := List.getElem?_of_mem member
  have present : (Prepared.outcome ring document tenant host).records[i]? =
      some (Prepared.recordOf ⟨host.entropy.next 32⟩ tenant (host.clock.advance i).now
        (host.entropy.advance (32 + 28 * i)) found) := by
    simp only [Prepared.outcome, Prepared.get_elem?_records_of, there, Option.map_some,
      Entropy.advance_advance]
  refine ⟨_, List.mem_of_getElem? present, _, _, rfl, ?_⟩
  rw [Record.placement, Prepared.recordOf, Pointer.split_text]

theorem value_of_placement (entry : Pointer × Json)
    (member : entry ∈ (Prepared.outcome ring document tenant host).records.map Record.placement) :
    ∃ found ∈ Tag.values document, entry.1 = found.1 ∧ entry.2.text? = none := by
  obtain ⟨record, present, rfl⟩ := List.mem_map.mp member
  obtain ⟨found, inValues, now, entropy, eq⟩ := record_of_mem ring document tenant host record present
  refine ⟨found, inValues, ?_, rfl⟩
  rw [Record.placement, eq, Prepared.recordOf, Pointer.split_text]

theorem restores_value (wellFormed : document.WellFormed)
    (legible : ∀ n ∈ document.numbers, n.Legible) (shallow : document.depth ≤ Json.Raw.depthLimit)
    (fits : Prepared.Sealable document tenant)
    (distinct : ((Prepared.outcome ring document tenant host).records.map Record.refId).Nodup)
    (found : Pointer × Json) (inValues : found ∈ Tag.values document) :
    (Prepared.openingFor ring document tenant host tenant).Restores
      ((Prepared.outcome ring document tenant host).records.map Record.placement)
      (Tag.sorting document) found.1 found.2 := by
  obtain ⟨record, present, now, entropy, eq, placement⟩ :=
    placement_of_value ring document tenant host found inValues
  have put := Json.putting_of_mem _ found.1 record.marker.toJson found.2
    (nodup_placements ring document tenant host wellFormed)
    (placement ▸ List.mem_map_of_mem present)
  have read := reads_of_mem_values document wellFormed legible shallow found inValues
  refine .inl ⟨_, found.2.sortKeys, put, if_pos ?_, ?_⟩
  · exact (Tag.mem_paths_iff document found.1).mpr ⟨found, inValues, rfl⟩
  · rw [Opening.rebuild_marker _ record present distinct (by rw [eq]; rfl) (by rw [eq]; rfl), eq]
    exact Opening.open_row_record_of _ tenant _ now entropy found _ (fits found inValues) read

theorem restores_elsewhere (opening : Opening) (pointer : Pointer) (value : Json)
    (untagged : ¬ ∃ found ∈ Tag.values document, found.1 = pointer)
    (unmarked : ∀ members, value = .obj members → Marker.refOf? members = none) :
    opening.Restores ((Prepared.outcome ring document tenant host).records.map Record.placement)
      (Tag.sorting document) pointer value := by
  have free : ∀ entry ∈ (Prepared.outcome ring document tenant host).records.map Record.placement,
      entry.1 ≠ pointer := by
    intro entry member same
    obtain ⟨found, inValues, eq, -⟩ := value_of_placement ring document tenant host entry member
    exact untagged ⟨found, inValues, eq ▸ same⟩
  have kept : Tag.sorting document pointer value = none :=
    if_neg fun inPaths => untagged ((Tag.mem_paths_iff document pointer).mp inPaths)
  refine .inr ⟨free, kept, fun members object => ?_⟩
  apply Marker.ref_of?_rewrite_members _ pointer members ?_ (unmarked members object)
  intro place inner new put
  obtain ⟨entry, found, rfl⟩ := Option.map_eq_some_iff.mp put
  obtain ⟨_, -, -, textless⟩ :=
    value_of_placement ring document tenant host entry (List.mem_of_find?_eq_some found)
  exact textless

theorem restores_inside_outcome (wellFormed : document.WellFormed)
    (legible : ∀ n ∈ document.numbers, n.Legible) (shallow : document.depth ≤ Json.Raw.depthLimit)
    (fits : Prepared.Sealable document tenant)
    (distinct : ((Prepared.outcome ring document tenant host).records.map Record.refId).Nodup)
    (unmarked : ∀ visit ∈ Json.visits Tag.guide document, Marker.refOf? visit.members = none) :
    (Prepared.openingFor ring document tenant host tenant).RestoresInside
      ((Prepared.outcome ring document tenant host).records.map Record.placement)
      (Tag.sorting document) [] document := by
  intro pointer value there above
  rw [List.nil_append]
  by_cases tagged : ∃ found ∈ Tag.values document, found.1 = pointer
  · obtain ⟨found, inValues, rfl⟩ := tagged
    have valueIs := Tag.at?_of_mem_values document found wellFormed inValues
    obtain rfl : value = found.2 := Option.some.inj (there.symm.trans valueIs)
    exact restores_value ring document tenant host wellFormed legible shallow fits distinct found inValues
  · apply restores_elsewhere ring document tenant host _ pointer value tagged
    rintro members rfl
    apply unmarked ⟨pointer, members⟩
    apply Tag.mem_visits_of_at? document pointer members there
    rintro found inValues ⟨tail, split⟩
    cases tail with
    | nil => exact tagged ⟨found, inValues, by rw [← split, List.append_nil]⟩
    | cons segment tail =>
      obtain ⟨record, present, -, -, -, placement⟩ :=
        placement_of_value ring document tenant host found inValues
      have entry := List.mem_map_of_mem (f := Record.placement) present
      exact above found.1 segment tail split.symm _ entry (by rw [placement]; rfl)

end

theorem prepared_eq_outcome (ring : Keyring) (document : Json) (tenant : String) (host after : Host)
    (prepared : Prepared) (wellFormed : document.WellFormed)
    (prepares : prepare ring document tenant host = (.ok prepared, after)) :
    prepared = Prepared.outcome ring document tenant host := by
  obtain ⟨enough, fits⟩ := holds_of_prepare ring document tenant host after prepared wellFormed prepares
  have result := (prepare_of_holds ring document tenant host wellFormed enough fits).1
  rw [prepares] at result
  exact Except.ok.inj result

theorem rewrite_sorting_of_untagged (document : Json) (untagged : Tag.values document = []) :
    document.rewrite (Tag.sorting document) = document := by
  have nothing : Tag.sorting document = fun _ _ => none := by
    funext pointer value
    exact if_neg (by simp [Tag.paths, untagged])
  rw [Json.rewrite, nothing, Json.rewrite_from_none]

theorem same_content_sorting (document : Json) :
    Json.sameContent (document.rewrite (Tag.sorting document)) document = true := by
  rw [Json.sameContent, decide_eq_true_eq]
  apply Json.sort_keys_rewrite_from _ [] document
  intro place inner new sorted
  unfold Tag.sorting at sorted
  split at sorted
  · cases sorted
    exact Json.sort_keys_sort_keys inner
  · cases sorted

theorem of_prepared_of_wrapped (prepared : Prepared) (wrapped : WrappedDek)
    (has : prepared.wrappedDek = some wrapped) :
    StoredDek.ofPrepared prepared = StoredDek.ofWrapped wrapped := by
  simp only [StoredDek.ofPrepared, has, Option.map_some, StoredDek.ofWrapped]

theorem unwraps_outcome (ring : Keyring) (document : Json) (tenant : String) (host : Host)
    (tagged : Tag.values document ≠ []) :
    (StoredDek.ofPrepared (Prepared.outcome ring document tenant host)).Unwraps ring
      (.ok ⟨host.entropy.next 32⟩) := by
  have wrapped : (Prepared.outcome ring document tenant host).wrappedDek =
      some (ring.wrappedWith ⟨host.entropy.next 32⟩
        (host.entropy.ahead (32 + 28 * (Tag.values document).length) 12)) := by
    simp only [Prepared.outcome, List.isEmpty_iff, if_neg tagged]
  rw [of_prepared_of_wrapped _ _ wrapped]
  exact unwraps_of_wrapped ring _ _ (Keyring.unwrap_wrapped_with ring ⟨host.entropy.next 32⟩ _)

theorem records_ne_nil (ring : Keyring) (document : Json) (tenant : String) (host : Host)
    (tagged : Tag.values document ≠ []) :
    (Prepared.outcome ring document tenant host).records ≠ [] := by
  rw [← List.isEmpty_eq_false_iff, Prepared.outcome, Prepared.is_empty_records_of]
  exact List.isEmpty_eq_false_iff.mpr tagged

theorem resolved_outcome (ring : Keyring) (document : Json) (tenant : String) (host : Host)
    (wellFormed : document.WellFormed) (legible : ∀ n ∈ document.numbers, n.Legible)
    (shallow : document.depth ≤ Json.Raw.depthLimit) (fits : Prepared.Sealable document tenant)
    (distinct : ((Prepared.outcome ring document tenant host).records.map Record.refId).Nodup)
    (unmarked : Tag.paths document = [] ∨
      ∀ visit ∈ Json.visits Tag.guide document, Marker.refOf? visit.members = none) :
    resolved ring (Prepared.outcome ring document tenant host).document tenant
        (Prepared.outcome ring document tenant host).records
        (.ofPrepared (Prepared.outcome ring document tenant host)) =
      .ok (document.rewrite (Tag.sorting document)) := by
  by_cases untagged : Tag.values document = []
  · have noRecords : (Prepared.outcome ring document tenant host).records = [] := by
      simp only [Prepared.outcome, untagged, Prepared.recordsOf]
    have same : (Prepared.outcome ring document tenant host).document = document :=
      (exact_outcome ring document tenant host wellFormed).untouched (List.map_eq_nil_iff.mpr untagged)
    rw [rewrite_sorting_of_untagged document untagged, resolved, noRecords, same]
    rfl
  · have records := records_ne_nil ring document tenant host untagged
    have visible := unmarked.resolve_left fun none => untagged (List.map_eq_nil_iff.mp none)
    rw [resolved_of_unwraps ring _ tenant _ _ _ records
      (unwraps_outcome ring document tenant host untagged)]
    exact Opening.rebuild_rewrite_from _ _ (Tag.sorting document) [] document wellFormed
      (restores_inside_outcome ring document tenant host wellFormed legible shallow fits distinct visible)

theorem resolve_prepare (ring : Keyring) (document : Json) (tenant : String) (host after : Host)
    (prepared : Prepared) (wellFormed : document.WellFormed)
    (legible : ∀ n ∈ document.numbers, n.Legible) (shallow : document.depth ≤ Json.Raw.depthLimit)
    (prepares : prepare ring document tenant host = (.ok prepared, after))
    (distinct : (prepared.records.map Record.refId).Nodup)
    (unmarked : Tag.paths document = [] ∨
      ∀ visit ∈ Json.visits Tag.guide document, Marker.refOf? visit.members = none)
    (later : Host) :
    (resolvePrepared ring prepared tenant later).1 =
        .ok (document.rewrite (Tag.sorting document)) ∧
      Json.sameContent (document.rewrite (Tag.sorting document)) document = true := by
  have fits := (holds_of_prepare ring document tenant host after prepared wellFormed prepares).2
  obtain rfl := prepared_eq_outcome ring document tenant host after prepared wellFormed prepares
  rw [resolvePrepared, resolve_fst]
  exact ⟨resolved_outcome ring document tenant host wellFormed legible shallow fits distinct unmarked,
    same_content_sorting document⟩

def smallPrepared : Prepared :=
  Prepared.outcome smallRing smallDocument "acme" smallHost

def smallRecord : Record :=
  Prepared.recordOf ⟨smallHost.entropy.next 32⟩ "acme" .epoch (smallHost.entropy.advance 32)
    (["secret", "value"], .obj [("b", .num (.int 1)), ("a", .null)])

theorem records_small_prepared : smallPrepared.records = [smallRecord] := by
  have values : Tag.values smallDocument =
      [(["secret", "value"], .obj [("b", .num (.int 1)), ("a", .null)])] := by decide
  simp only [smallPrepared, Prepared.outcome, values, Prepared.recordsOf, smallRecord]
  rfl

theorem prepare_small_document :
    prepare smallRing smallDocument "acme" smallHost =
      (.ok smallPrepared, (prepare smallRing smallDocument "acme" smallHost).2) :=
  Prod.ext (prepare_of_holds smallRing smallDocument "acme" smallHost well_formed_small_document
    (by decide) sealable_small_document).1 rfl

theorem legible_small_document : ∀ n ∈ smallDocument.numbers, n.Legible := by
  have numbers : smallDocument.numbers = [.int 1] := rfl
  rw [numbers]
  simp [Number.Legible]

theorem distinct_small_prepared : (smallPrepared.records.map Record.refId).Nodup := by
  simp [records_small_prepared]

theorem unmarked_small_document :
    ∀ visit ∈ Json.visits Tag.guide smallDocument, Marker.refOf? visit.members = none := by
  decide

theorem resolve_prepare_small :
    smallDocument.WellFormed ∧ (∀ n ∈ smallDocument.numbers, n.Legible) ∧
      smallDocument.depth ≤ Json.Raw.depthLimit ∧
      (∃ after, prepare smallRing smallDocument "acme" smallHost = (.ok smallPrepared, after)) ∧
      (smallPrepared.records.map Record.refId).Nodup ∧
      (∀ visit ∈ Json.visits Tag.guide smallDocument, Marker.refOf? visit.members = none) ∧
      (resolvePrepared smallRing smallPrepared "acme" smallHost).1 =
        .ok (smallDocument.rewrite (Tag.sorting smallDocument)) :=
  ⟨well_formed_small_document, legible_small_document, by decide, ⟨_, prepare_small_document⟩,
    distinct_small_prepared, unmarked_small_document,
    (resolve_prepare smallRing smallDocument "acme" smallHost _ smallPrepared
      well_formed_small_document legible_small_document (by decide) prepare_small_document
      distinct_small_prepared (.inr unmarked_small_document) smallHost).1⟩

end Envelope
