import Envelope.Field.Resolved
import Envelope.Proofs.Field.Sites
import Envelope.Proofs.Keyring.Wrapping
import Mathlib.Data.List.Forall2

set_option autoImplicit false

namespace Envelope

namespace Opening

-- The values of markers with their places, in their order up to the first that does not open.
def openEach (opening : Opening) : List Marker.Site → Except FieldError (List (Pointer × Json))
  | [] => .ok []
  | site :: rest =>
    match opening.openMarker site.members site.ref with
    | .error cause => .error cause
    | .ok value => (openEach opening rest).map fun entries => (site.pointer, value) :: entries

theorem open_each_append (opening : Opening) (front back : List Marker.Site) :
    opening.openEach (front ++ back) =
      match opening.openEach front with
      | .error cause => .error cause
      | .ok first => (opening.openEach back).map fun second => first ++ second := by
  induction front with
  | nil =>
    cases opened : opening.openEach back <;>
      simp only [List.nil_append, openEach, opened, Except.map]
  | cons site rest ih =>
    simp only [List.cons_append, openEach, ih]
    cases opening.openMarker site.members site.ref with
    | error cause => rfl
    | ok value =>
      cases opening.openEach rest with
      | error cause => rfl
      | ok first => cases opening.openEach back <;> rfl

theorem site_of_mem_open_each (opening : Opening) (sites : List Marker.Site)
    (entries : List (Pointer × Json)) (opened : opening.openEach sites = .ok entries) :
    ∀ entry ∈ entries, ∃ site ∈ sites, entry.1 = site.pointer := by
  induction sites generalizing entries with
  | nil =>
    cases opened
    simp
  | cons site rest ih =>
    rw [openEach] at opened
    cases here : opening.openMarker site.members site.ref with
    | error cause => simp only [here, reduceCtorEq] at opened
    | ok value =>
      cases later : opening.openEach rest with
      | error cause => simp only [here, later, Except.map, reduceCtorEq] at opened
      | ok others =>
        simp only [here, later, Except.map, Except.ok.injEq] at opened
        intro entry member
        rw [← opened] at member
        rcases List.mem_cons.mp member with rfl | inOthers
        · exact ⟨site, List.mem_cons_self, rfl⟩
        · obtain ⟨other, present, eq⟩ := ih others later entry inOthers
          exact ⟨other, List.mem_cons_of_mem _ present, eq⟩

theorem below_of_open_each_items (opening : Opening) (pointer : Pointer) (start : Nat)
    (items : List Json) (entries : List (Pointer × Json)) (wellFormed : Json.ItemsWellFormed items)
    (opened : opening.openEach (Marker.itemSites pointer start items) = .ok entries) :
    ∀ entry ∈ entries, Pointer.Below pointer (Pointer.IndexFrom start) entry.1 := by
  intro entry member
  obtain ⟨site, present, eq⟩ := site_of_mem_open_each opening _ entries opened entry member
  obtain ⟨-, index, _, tail, -, below, -⟩ :=
    Marker.located_of_mem_item_sites pointer start items site wellFormed present
  exact eq ▸ ⟨_, ⟨start + index, Nat.le_add_right _ _, rfl⟩, tail, below⟩

theorem below_of_open_each_members (opening : Opening) (pointer : Pointer) (members : Table Json)
    (entries : List (Pointer × Json)) (wellFormed : Json.MembersWellFormed members)
    (opened : opening.openEach (Marker.memberSites pointer members) = .ok entries) :
    ∀ entry ∈ entries, Pointer.Below pointer (· ∈ Table.keys members) entry.1 := by
  intro entry member
  obtain ⟨site, present, eq⟩ := site_of_mem_open_each opening _ entries opened entry member
  obtain ⟨-, origin, there, tail, below, -⟩ :=
    Marker.located_of_mem_member_sites pointer members site wellFormed present
  exact eq ▸ ⟨origin.1, List.mem_map_of_mem (f := Prod.fst) there, tail, below⟩

theorem below_of_open_each (opening : Opening) (pointer : Pointer) (segment : String) (value : Json)
    (entries : List (Pointer × Json)) (wellFormed : value.WellFormed)
    (opened : opening.openEach (Marker.sitesFrom (pointer ++ [segment]) value) = .ok entries) :
    ∀ entry ∈ entries, Pointer.Below pointer (· = segment) entry.1 := by
  intro entry member
  obtain ⟨site, present, eq⟩ := site_of_mem_open_each opening _ entries opened entry member
  obtain ⟨-, tail, below, -⟩ := Marker.located_of_mem_sites_from _ value site wellFormed present
  exact eq ▸ Pointer.below_of_prefix pointer site.pointer tail segment below

mutual
-- Rebuilding a document opens its outermost markers one after the other, and changes nothing else.
theorem rebuild_eq (opening : Opening) (pointer : Pointer) (value : Json)
    (wellFormed : value.WellFormed) :
    opening.rebuild value = (opening.openEach (Marker.sitesFrom pointer value)).map fun entries =>
      Json.rewriteFrom (Json.putting entries) pointer value := by
  cases value with
  | null | bool | num | str => rfl
  | arr items =>
    rw [rebuild, rebuild_items_eq opening pointer 0 items wellFormed, Marker.sitesFrom]
    cases opened : opening.openEach (Marker.itemSites pointer 0 items) with
    | error cause => rfl
    | ok entries =>
      have below := below_of_open_each_items opening pointer 0 items entries wellFormed opened
      have kept := Json.putting_above entries pointer _ (.arr items) below
      simp only [Except.map, Json.rewrite_from_arr _ _ _ kept]
  | obj members =>
    cases marked : Marker.refOf? members with
    | some ref =>
      rw [rebuild, Marker.sites_from_marker pointer members ref marked, openEach]
      simp only [marked]
      cases opening.openMarker members ref with
      | error cause => rfl
      | ok new =>
        have replaced := Json.putting_cons_self pointer new (.obj members) []
        simp only [openEach, Except.map, Json.rewrite_from_eq_some _ _ _ _ replaced]
    | none =>
      rw [rebuild, rebuild_members_eq opening pointer members wellFormed.2 wellFormed.1,
        Marker.sites_from_plain pointer members marked]
      simp only [marked]
      cases opened : opening.openEach (Marker.memberSites pointer members) with
      | error cause => rfl
      | ok entries =>
        have below := below_of_open_each_members opening pointer members entries wellFormed.2 opened
        have kept := Json.putting_above entries pointer _ (.obj members) below
        simp only [Except.map, Json.rewrite_from_obj _ _ _ kept]
theorem rebuild_items_eq (opening : Opening) (pointer : Pointer) (start : Nat) (items : List Json)
    (wellFormed : Json.ItemsWellFormed items) :
    opening.rebuildItems items =
      (opening.openEach (Marker.itemSites pointer start items)).map fun entries =>
        Json.rewriteItems (Json.putting entries) pointer start items := by
  cases items with
  | nil => rfl
  | cons item rest =>
    rw [rebuildItems, rebuild_eq opening _ item wellFormed.1,
      rebuild_items_eq opening pointer (start + 1) rest wellFormed.2, Marker.itemSites,
      open_each_append]
    cases here : opening.openEach
        (Marker.sitesFrom (pointer ++ [Pointer.indexSegment start]) item) with
    | error cause => rfl
    | ok first =>
      cases later : opening.openEach (Marker.itemSites pointer (start + 1) rest) with
      | error cause => rfl
      | ok second =>
        exact congrArg Except.ok (Json.rewrite_items_putting_append first second pointer start item rest
          (below_of_open_each opening pointer _ item first wellFormed.1 here)
          (below_of_open_each_items opening pointer (start + 1) rest second wellFormed.2 later)).symm
theorem rebuild_members_eq (opening : Opening) (pointer : Pointer) (members : Table Json)
    (wellFormed : Json.MembersWellFormed members) (differ : (Table.keys members).Nodup) :
    opening.rebuildMembers members =
      (opening.openEach (Marker.memberSites pointer members)).map fun entries =>
        Json.rewriteMembers (Json.putting entries) pointer members := by
  cases members with
  | nil => rfl
  | cons member rest =>
    obtain ⟨key, value⟩ := member
    obtain ⟨fresh, restDiffer⟩ := List.nodup_cons.mp differ
    rw [rebuildMembers, rebuild_eq opening _ value wellFormed.1,
      rebuild_members_eq opening pointer rest wellFormed.2 restDiffer, Marker.memberSites,
      open_each_append]
    cases here : opening.openEach (Marker.sitesFrom (pointer ++ [key]) value) with
    | error cause => rfl
    | ok first =>
      cases later : opening.openEach (Marker.memberSites pointer rest) with
      | error cause => rfl
      | ok second =>
        exact congrArg Except.ok (Json.rewrite_members_putting_append first second pointer key value
          rest fresh (below_of_open_each opening pointer key value first wellFormed.1 here)
          (below_of_open_each_members opening pointer rest second wellFormed.2 later)).symm
end

end Opening

def LastRow (rows : List Record) (ref : String) (row : Record) : Prop :=
  ∃ front back, rows = front ++ row :: back ∧ row.refId = ref ∧ ∀ later ∈ back, later.refId ≠ ref

def HashAgrees (members : Table Json) (row : Record) : Prop :=
  ∀ hash, Table.get? members "enc_hash" = some (.str hash) →
    Text.sameIgnoringCase (Hex.encode (Sha256.digest row.ciphertext)) hash = true

structure Fits (rows : List Record) (site : Marker.Site) (row : Record) : Prop where
  last : LastRow rows site.ref row
  hash : HashAgrees site.members row
  algorithm : row.algorithm = "AES-256-GCM"

-- What becomes of one marker. Each check is made only when those before it are passed.
inductive Outcome (dek : Dek) (tenant : String) (rows : List Record) (site : Marker.Site) :
    Except FieldError Json → Prop where
  | missingRow (absent : ∀ row ∈ rows, row.refId ≠ site.ref) :
      Outcome dek tenant rows site (.error (.missingRow site.ref))
  | hashMismatch (row : Record) (last : LastRow rows site.ref row)
      (hash : ¬ HashAgrees site.members row) :
      Outcome dek tenant rows site (.error (.hashMismatch site.ref))
  | unsupportedAlgorithm (row : Record) (last : LastRow rows site.ref row)
      (hash : HashAgrees site.members row) (algorithm : row.algorithm ≠ "AES-256-GCM") :
      Outcome dek tenant rows site (.error (.unsupportedAlgorithm row.algorithm))
  | nonceLength (row : Record) (fits : Fits rows site row) (nonce : row.nonce.length ≠ 12) :
      Outcome dek tenant rows site (.error (.crypto (.nonceLength row.nonce.length)))
  | dataTooShort (row : Record) (fits : Fits rows site row) (nonce : row.nonce.length = 12)
      (short : row.ciphertext.length < 16) :
      Outcome dek tenant rows site (.error (.crypto .dataTooShort))
  | decryptionFailed (row : Record) (fits : Fits rows site row) (nonce : Gcm.Nonce)
      (nonceIs : nonce.val = row.nonce) (long : 16 ≤ row.ciphertext.length)
      (closed : Gcm.opened? dek.key nonce row.ciphertext
        (Utf8.encode (fieldAad tenant row.path)) = none) :
      Outcome dek tenant rows site (.error (.crypto .decryptionFailed))
  | notJson (row : Record) (fits : Fits rows site row) (nonce : Gcm.Nonce)
      (nonceIs : nonce.val = row.nonce) (long : 16 ≤ row.ciphertext.length) (plaintext : Bytes)
      (opened : Gcm.opened? dek.key nonce row.ciphertext
        (Utf8.encode (fieldAad tenant row.path)) = some plaintext)
      (unread : Json.ofBytes? plaintext = none) :
      Outcome dek tenant rows site (.error .notJson)
  | value (row : Record) (fits : Fits rows site row) (nonce : Gcm.Nonce)
      (nonceIs : nonce.val = row.nonce) (long : 16 ≤ row.ciphertext.length) (plaintext : Bytes)
      (opened : Gcm.opened? dek.key nonce row.ciphertext
        (Utf8.encode (fieldAad tenant row.path)) = some plaintext)
      (value : Json) (read : Json.ofBytes? plaintext = some value) :
      Outcome dek tenant rows site (.ok value)

theorem row?_eq_none_iff (opening : Opening) (ref : String) :
    opening.row? ref = none ↔ ∀ row ∈ opening.rows, row.refId ≠ ref := by
  simp [Opening.row?]

theorem row?_eq_some_iff (opening : Opening) (ref : String) (row : Record) :
    opening.row? ref = some row ↔ LastRow opening.rows ref row := by
  simp only [Opening.row?, List.find?_eq_some_iff_append, LastRow]
  constructor
  · rintro ⟨same, later, earlier, split, others⟩
    refine ⟨earlier.reverse, later.reverse, ?_, by simpa using same, by simpa using others⟩
    rw [← List.reverse_reverse opening.rows, split]
    simp
  · rintro ⟨front, back, split, same, others⟩
    refine ⟨by simpa using same, back.reverse, front.reverse, ?_, by simpa using others⟩
    rw [split]
    simp

theorem mem_of_last_row (rows : List Record) (ref : String) (row : Record)
    (last : LastRow rows ref row) : row ∈ rows ∧ row.refId = ref := by
  obtain ⟨front, back, rfl, same, -⟩ := last
  exact ⟨List.mem_append_right _ List.mem_cons_self, same⟩

theorem last_row_of_mem (rows : List Record) (row : Record) (member : row ∈ rows)
    (distinct : (rows.map Record.refId).Nodup) : LastRow rows row.refId row := by
  obtain ⟨front, back, rfl⟩ := List.append_of_mem member
  refine ⟨front, back, rfl, rfl, fun later present same => ?_⟩
  rw [List.map_append, List.map_cons] at distinct
  have fresh := (List.nodup_cons.mp (List.nodup_append.mp distinct).2.1).1
  exact fresh (same ▸ List.mem_map_of_mem present)

theorem hash_of?_eq_some_iff (members : Table Json) (hash : String) :
    Marker.hashOf? members = some hash ↔ Table.get? members "enc_hash" = some (.str hash) := by
  simp only [Marker.hashOf?, Option.bind_eq_some_iff]
  constructor
  · rintro ⟨value, found, text⟩
    cases value <;> cases text
    exact found
  · exact fun found => ⟨_, found, rfl⟩

theorem hash_matches_iff (members : Table Json) (row : Record) :
    Opening.hashMatches members row = true ↔ HashAgrees members row := by
  unfold Opening.hashMatches HashAgrees
  cases given : Marker.hashOf? members with
  | none =>
    refine iff_of_true rfl fun hash found => ?_
    rw [(hash_of?_eq_some_iff members hash).mpr found] at given
    cases given
  | some hash =>
    have found := (hash_of?_eq_some_iff members hash).mp given
    simp only [found, Option.some.injEq, Json.str.injEq, forall_eq']
    rfl

theorem hash_agrees_members (record : Record)
    (hash : record.markerHash = Marker.hashOfCiphertext record.ciphertext) :
    HashAgrees record.marker.members record := by
  intro given found
  have same : record.markerHash = given := by
    simpa [Record.marker, Marker.make, Marker.members, Table.get?, Marker.refKey, Marker.hashKey]
      using found
  rw [← same, hash]
  simp [Text.sameIgnoringCase, Marker.hashOfCiphertext]

theorem outcome_open_row (opening : Opening) (site : Marker.Site) (row : Record)
    (fits : Fits opening.rows site row) :
    Outcome opening.dek opening.tenant opening.rows site (opening.openRow row) := by
  unfold Opening.openRow Dek.openValue Sealed.openWith
  cases sized : Sized.ofBytes? 12 row.nonce with
  | none => exact .nonceLength row fits ((Sized.of_bytes?_eq_none_iff 12 row.nonce).mp sized)
  | some nonce =>
    have nonceIs : nonce.val = row.nonce := (Sized.of_bytes?_eq_some_iff 12 row.nonce nonce).mp sized
    by_cases short : row.ciphertext.length < Gcm.tagLength
    · simp only [if_pos short]
      exact .dataTooShort row fits (nonceIs ▸ nonce.property) short
    · have long : 16 ≤ row.ciphertext.length := Nat.le_of_not_lt short
      simp only [if_neg short]
      cases opened : Gcm.opened? opening.dek.key nonce row.ciphertext
          (Utf8.encode (fieldAad opening.tenant row.path)) with
      | none => exact .decryptionFailed row fits nonce nonceIs long opened
      | some plaintext =>
        cases read : Json.ofBytes? plaintext with
        | none =>
          simp only [read]
          exact .notJson row fits nonce nonceIs long plaintext opened read
        | some value =>
          simp only [read]
          exact .value row fits nonce nonceIs long plaintext opened value read

theorem outcome_open_marker (opening : Opening) (site : Marker.Site) :
    Outcome opening.dek opening.tenant opening.rows site
      (opening.openMarker site.members site.ref) := by
  unfold Opening.openMarker
  cases found : opening.row? site.ref with
  | none => exact .missingRow ((row?_eq_none_iff opening site.ref).mp found)
  | some row =>
    have last := (row?_eq_some_iff opening site.ref row).mp found
    by_cases hash : Opening.hashMatches site.members row = true
    · have agrees := (hash_matches_iff site.members row).mp hash
      by_cases algorithm : row.algorithm = Marker.fieldAlgorithm
      · simp only [if_pos hash, if_pos algorithm]
        exact outcome_open_row opening site row ⟨last, agrees, algorithm⟩
      · simp only [if_pos hash, if_neg algorithm]
        exact .unsupportedAlgorithm row last agrees algorithm
    · simp only [if_neg hash]
      exact .hashMismatch row last fun agrees => hash ((hash_matches_iff site.members row).mpr agrees)

theorem open_marker_of_last (opening : Opening) (site : Marker.Site) (row : Record)
    (last : LastRow opening.rows site.ref row) :
    opening.openMarker site.members site.ref =
      if Opening.hashMatches site.members row then
        if row.algorithm = Marker.fieldAlgorithm then opening.openRow row
        else .error (.unsupportedAlgorithm row.algorithm)
      else .error (.hashMismatch site.ref) := by
  rw [Opening.openMarker, (row?_eq_some_iff opening site.ref row).mpr last]

theorem open_marker_of_fits (opening : Opening) (site : Marker.Site) (row : Record)
    (fits : Fits opening.rows site row) :
    opening.openMarker site.members site.ref = opening.openRow row := by
  rw [open_marker_of_last opening site row fits.last,
    if_pos ((hash_matches_iff site.members row).mpr fits.hash)]
  exact if_pos fits.algorithm

theorem open_row_of_nonce (opening : Opening) (row : Record) (nonce : Gcm.Nonce)
    (nonceIs : nonce.val = row.nonce) (long : 16 ≤ row.ciphertext.length) :
    opening.openRow row =
      match Gcm.opened? opening.dek.key nonce row.ciphertext
          (Utf8.encode (fieldAad opening.tenant row.path)) with
      | none => .error (.crypto .decryptionFailed)
      | some plaintext =>
        match Json.ofBytes? plaintext with
        | some value => .ok value
        | none => .error .notJson := by
  have enough : ¬ row.ciphertext.length < Gcm.tagLength := Nat.not_lt.mpr long
  simp only [Opening.openRow, Dek.openValue, Sealed.openWith, ← nonceIs, Sized.of_bytes?_val,
    if_neg enough]
  cases Gcm.opened? opening.dek.key nonce row.ciphertext
    (Utf8.encode (fieldAad opening.tenant row.path)) <;> rfl

theorem open_marker_of_outcome (opening : Opening) (site : Marker.Site)
    (result : Except FieldError Json)
    (outcome : Outcome opening.dek opening.tenant opening.rows site result) :
    opening.openMarker site.members site.ref = result := by
  cases outcome with
  | missingRow absent =>
    rw [Opening.openMarker, (row?_eq_none_iff opening site.ref).mpr absent]
  | hashMismatch row last hash =>
    rw [open_marker_of_last opening site row last,
      if_neg fun same => hash ((hash_matches_iff site.members row).mp same)]
  | unsupportedAlgorithm row last hash algorithm =>
    rw [open_marker_of_last opening site row last,
      if_pos ((hash_matches_iff site.members row).mpr hash)]
    exact if_neg algorithm
  | nonceLength row fits nonce =>
    rw [open_marker_of_fits opening site row fits, Opening.openRow, Dek.openValue, Sealed.openWith,
      (Sized.of_bytes?_eq_none_iff 12 row.nonce).mpr nonce]
  | dataTooShort row fits nonce short =>
    obtain ⟨sized, eq⟩ : ∃ sized : Gcm.Nonce, sized.val = row.nonce := ⟨⟨row.nonce, nonce⟩, rfl⟩
    have tooShort : row.ciphertext.length < Gcm.tagLength := short
    rw [open_marker_of_fits opening site row fits]
    simp only [Opening.openRow, Dek.openValue, Sealed.openWith, ← eq, Sized.of_bytes?_val,
      if_pos tooShort]
  | decryptionFailed row fits nonce nonceIs long closed =>
    rw [open_marker_of_fits opening site row fits, open_row_of_nonce opening row nonce nonceIs long,
      closed]
  | notJson row fits nonce nonceIs long plaintext opened unread =>
    rw [open_marker_of_fits opening site row fits, open_row_of_nonce opening row nonce nonceIs long,
      opened]
    simp only [unread]
  | value row fits nonce nonceIs long plaintext opened value read =>
    rw [open_marker_of_fits opening site row fits, open_row_of_nonce opening row nonce nonceIs long,
      opened]
    simp only [read]

theorem open_marker_eq_iff (opening : Opening) (site : Marker.Site)
    (result : Except FieldError Json) :
    opening.openMarker site.members site.ref = result ↔
      Outcome opening.dek opening.tenant opening.rows site result :=
  ⟨fun eq => eq ▸ outcome_open_marker opening site, open_marker_of_outcome opening site result⟩

def OpensTo (dek : Dek) (tenant : String) (rows : List Record) (site : Marker.Site)
    (entry : Pointer × Json) : Prop :=
  entry.1 = site.pointer ∧ Outcome dek tenant rows site (.ok entry.2)

theorem open_each_eq_ok_iff (opening : Opening) (sites : List Marker.Site)
    (entries : List (Pointer × Json)) :
    opening.openEach sites = .ok entries ↔
      List.Forall₂ (OpensTo opening.dek opening.tenant opening.rows) sites entries := by
  induction sites generalizing entries with
  | nil =>
    simp only [Opening.openEach, Except.ok.injEq, List.forall₂_nil_left_iff]
    exact eq_comm
  | cons site rest ih =>
    rw [List.forall₂_cons_left_iff]
    constructor
    · intro opened
      cases here : opening.openMarker site.members site.ref with
      | error cause => simp only [Opening.openEach, here, reduceCtorEq] at opened
      | ok value =>
        cases later : opening.openEach rest with
        | error cause => simp only [Opening.openEach, here, later, Except.map, reduceCtorEq] at opened
        | ok others =>
          simp only [Opening.openEach, here, later, Except.map, Except.ok.injEq] at opened
          exact ⟨(site.pointer, value), others, ⟨rfl, (open_marker_eq_iff opening site _).mp here⟩,
            (ih others).mp later, opened.symm⟩
    · rintro ⟨⟨pointer, value⟩, others, ⟨same, outcome⟩, later, rfl⟩
      simp only at same outcome
      simp only [Opening.openEach, (open_marker_eq_iff opening site _).mpr outcome,
        (ih others).mpr later, Except.map, same]

theorem open_each_is_ok_iff (opening : Opening) (sites : List Marker.Site) :
    (∃ entries, opening.openEach sites = .ok entries) ↔
      ∀ site ∈ sites, ∃ value, opening.openMarker site.members site.ref = .ok value := by
  simp only [open_each_eq_ok_iff, open_marker_eq_iff]
  induction sites with
  | nil => simp
  | cons site rest ih =>
    simp only [List.forall₂_cons_left_iff, List.forall_mem_cons, ← ih]
    constructor
    · rintro ⟨_, entry, others, ⟨-, outcome⟩, later, -⟩
      exact ⟨⟨entry.2, outcome⟩, others, later⟩
    · rintro ⟨⟨value, outcome⟩, others, later⟩
      exact ⟨_, (site.pointer, value), others, ⟨rfl, outcome⟩, later, rfl⟩

theorem open_each_eq_error_iff (opening : Opening) (sites : List Marker.Site) (cause : FieldError) :
    opening.openEach sites = .error cause ↔
      ∃ front site back, sites = front ++ site :: back ∧
        (∀ earlier ∈ front, ∃ value,
          Outcome opening.dek opening.tenant opening.rows earlier (.ok value)) ∧
        Outcome opening.dek opening.tenant opening.rows site (.error cause) := by
  induction sites with
  | nil => simp [Opening.openEach]
  | cons first rest ih =>
    constructor
    · intro failed
      cases here : opening.openMarker first.members first.ref with
      | error other =>
        simp only [Opening.openEach, here, Except.error.injEq] at failed
        subst failed
        exact ⟨[], first, rest, rfl, by simp, (open_marker_eq_iff opening first _).mp here⟩
      | ok value =>
        cases later : opening.openEach rest with
        | ok others => simp only [Opening.openEach, here, later, Except.map, reduceCtorEq] at failed
        | error other =>
          simp only [Opening.openEach, here, later, Except.map, Except.error.injEq] at failed
          obtain ⟨front, site, back, rfl, before, outcome⟩ := ih.mp (failed ▸ later)
          have opens := (open_marker_eq_iff opening first _).mp here
          exact ⟨first :: front, site, back, rfl, List.forall_mem_cons.mpr ⟨⟨value, opens⟩, before⟩,
            outcome⟩
    · rintro ⟨front, site, back, split, before, outcome⟩
      have failed := (open_marker_eq_iff opening site _).mpr outcome
      cases front with
      | nil =>
        cases split
        simp only [Opening.openEach, failed]
      | cons head front =>
        cases split
        obtain ⟨⟨value, opens⟩, others⟩ := List.forall_mem_cons.mp before
        have later := ih.mpr ⟨front, site, back, rfl, others, outcome⟩
        simp only [Opening.openEach, (open_marker_eq_iff opening first _).mpr opens, later, Except.map]

def StoredDek.ofWrapped (wrapped : WrappedDek) : StoredDek :=
  ⟨some wrapped.wrapped, some wrapped.kekId, some wrapped.algorithm⟩

def StoredDek.Unwraps (ring : Keyring) (stored : StoredDek) (result : Except CryptoError Dek) : Prop :=
  ∃ wrapped kekId, stored.wrapped = some wrapped ∧ stored.kekId = some kekId ∧
    ring.unwrap ⟨wrapped, kekId, stored.algorithm.getD "AES-256-GCM"⟩ = result

/-- What a document is resolved to. -/
inductive Resolution (ring : Keyring) (document : Json) (tenant : String) (rows : List Record)
    (stored : StoredDek) : Except FieldError Json → Prop where
  | noRows (empty : rows = []) : Resolution ring document tenant rows stored (.ok document)
  | missingDek (given : rows ≠ []) (missing : stored.wrapped = none ∨ stored.kekId = none) :
      Resolution ring document tenant rows stored (.error .missingDek)
  | unwrapFails (given : rows ≠ []) (cause : CryptoError)
      (unwraps : stored.Unwraps ring (.error cause)) :
      Resolution ring document tenant rows stored (.error (.crypto cause))
  | opened (given : rows ≠ []) (dek : Dek) (unwraps : stored.Unwraps ring (.ok dek))
      (entries : List (Pointer × Json))
      (each : List.Forall₂ (OpensTo dek tenant rows) (Marker.sites document) entries) :
      Resolution ring document tenant rows stored (.ok (document.rewrite (Json.putting entries)))
  | failed (given : rows ≠ []) (dek : Dek) (unwraps : stored.Unwraps ring (.ok dek))
      (front back : List Marker.Site) (site : Marker.Site)
      (split : Marker.sites document = front ++ site :: back)
      (before : ∀ earlier ∈ front, ∃ value, Outcome dek tenant rows earlier (.ok value))
      (cause : FieldError) (first : Outcome dek tenant rows site (.error cause)) :
      Resolution ring document tenant rows stored (.error cause)

theorem resolve_fst (ring : Keyring) (document : Json) (tenant : String) (rows : List Record)
    (stored : StoredDek) (host : Host) :
    (resolve ring document tenant rows stored host).1 = resolved ring document tenant rows stored := by
  simp only [resolve, Action.bind_apply, Action.ofExcept]
  cases resolved ring document tenant rows stored with
  | error cause => rfl
  | ok value => cases rows <;> rfl

theorem wrapped_dek?_eq_none_iff (stored : StoredDek) :
    stored.wrappedDek? = none ↔ stored.wrapped = none ∨ stored.kekId = none := by
  obtain ⟨wrapped, kekId, algorithm⟩ := stored
  cases wrapped <;> cases kekId <;> simp [StoredDek.wrappedDek?]

theorem unwraps_iff (ring : Keyring) (stored : StoredDek) (result : Except CryptoError Dek) :
    stored.Unwraps ring result ↔
      ∃ wrapped, stored.wrappedDek? = some wrapped ∧ ring.unwrap wrapped = result := by
  obtain ⟨wrapped, kekId, algorithm⟩ := stored
  cases wrapped <;> cases kekId <;>
    simp [StoredDek.Unwraps, StoredDek.wrappedDek?, WrappedDek.supportedAlgorithm]

theorem unwraps_of_wrapped (ring : Keyring) (wrapped : WrappedDek) (result : Except CryptoError Dek)
    (unwrapped : ring.unwrap wrapped = result) :
    (StoredDek.ofWrapped wrapped).Unwraps ring result :=
  ⟨wrapped.wrapped, wrapped.kekId, rfl, rfl, unwrapped⟩

theorem resolved_of_unwraps (ring : Keyring) (document : Json) (tenant : String)
    (rows : List Record) (stored : StoredDek) (dek : Dek) (given : rows ≠ [])
    (unwraps : stored.Unwraps ring (.ok dek)) :
    resolved ring document tenant rows stored = Opening.rebuild ⟨dek, tenant, rows⟩ document := by
  obtain ⟨wrapped, found, unwrapped⟩ := (unwraps_iff ring stored _).mp unwraps
  simp only [resolved, List.isEmpty_iff, if_neg given, found, unwrapped]

theorem rebuild_of_resolved (ring : Keyring) (document : Json) (tenant : String)
    (rows : List Record) (stored : StoredDek) (value : Json) (given : rows ≠ [])
    (resolves : resolved ring document tenant rows stored = .ok value) :
    ∃ dek, stored.Unwraps ring (.ok dek) ∧
      Opening.rebuild ⟨dek, tenant, rows⟩ document = .ok value := by
  cases found : stored.wrappedDek? with
  | none =>
    simp only [resolved, List.isEmpty_iff, if_neg given, found, reduceCtorEq] at resolves
  | some wrapped =>
    cases unwrapped : ring.unwrap wrapped with
    | error cause =>
      simp only [resolved, List.isEmpty_iff, if_neg given, found, unwrapped, reduceCtorEq] at resolves
    | ok dek =>
      have unwraps := (unwraps_iff ring stored (.ok dek)).mpr ⟨wrapped, found, unwrapped⟩
      rw [resolved_of_unwraps ring document tenant rows stored dek given unwraps] at resolves
      exact ⟨dek, unwraps, resolves⟩

theorem resolved_eq_open_each (ring : Keyring) (document : Json) (tenant : String)
    (rows : List Record) (stored : StoredDek) (dek : Dek) (wellFormed : document.WellFormed)
    (given : rows ≠ []) (unwraps : stored.Unwraps ring (.ok dek)) :
    resolved ring document tenant rows stored =
      (Opening.openEach ⟨dek, tenant, rows⟩ (Marker.sites document)).map fun entries =>
        document.rewrite (Json.putting entries) := by
  rw [resolved_of_unwraps ring document tenant rows stored dek given unwraps]
  exact Opening.rebuild_eq ⟨dek, tenant, rows⟩ [] document wellFormed

theorem resolution_resolved (ring : Keyring) (document : Json) (tenant : String)
    (rows : List Record) (stored : StoredDek) (wellFormed : document.WellFormed) :
    Resolution ring document tenant rows stored (resolved ring document tenant rows stored) := by
  by_cases empty : rows = []
  · simp only [resolved, List.isEmpty_iff, if_pos empty]
    exact .noRows empty
  · cases found : stored.wrappedDek? with
    | none =>
      simp only [resolved, List.isEmpty_iff, if_neg empty, found]
      exact .missingDek empty ((wrapped_dek?_eq_none_iff stored).mp found)
    | some wrapped =>
      cases unwrapped : ring.unwrap wrapped with
      | error cause =>
        simp only [resolved, List.isEmpty_iff, if_neg empty, found, unwrapped]
        exact .unwrapFails empty cause ((unwraps_iff ring stored _).mpr ⟨wrapped, found, unwrapped⟩)
      | ok dek =>
        have unwraps := (unwraps_iff ring stored (.ok dek)).mpr ⟨wrapped, found, unwrapped⟩
        rw [resolved_eq_open_each ring document tenant rows stored dek wellFormed empty unwraps]
        cases opened : Opening.openEach ⟨dek, tenant, rows⟩ (Marker.sites document) with
        | ok entries =>
          exact .opened empty dek unwraps entries ((open_each_eq_ok_iff ⟨dek, tenant, rows⟩ _ _).mp opened)
        | error cause =>
          obtain ⟨front, site, back, split, before, first⟩ :=
            (open_each_eq_error_iff ⟨dek, tenant, rows⟩ _ _).mp opened
          exact .failed empty dek unwraps front back site split before cause first

theorem resolved_of_resolution (ring : Keyring) (document : Json) (tenant : String)
    (rows : List Record) (stored : StoredDek) (result : Except FieldError Json)
    (wellFormed : document.WellFormed)
    (resolution : Resolution ring document tenant rows stored result) :
    resolved ring document tenant rows stored = result := by
  cases resolution with
  | noRows empty => simp only [resolved, List.isEmpty_iff, if_pos empty]
  | missingDek given missing =>
    simp only [resolved, List.isEmpty_iff, if_neg given,
      (wrapped_dek?_eq_none_iff stored).mpr missing]
  | unwrapFails given cause unwraps =>
    obtain ⟨wrapped, found, unwrapped⟩ := (unwraps_iff ring stored _).mp unwraps
    simp only [resolved, List.isEmpty_iff, if_neg given, found, unwrapped]
  | opened given dek unwraps entries each =>
    rw [resolved_eq_open_each ring document tenant rows stored dek wellFormed given unwraps,
      (open_each_eq_ok_iff ⟨dek, tenant, rows⟩ _ entries).mpr each]
    rfl
  | failed given dek unwraps front back site split before cause first =>
    rw [resolved_eq_open_each ring document tenant rows stored dek wellFormed given unwraps,
      (open_each_eq_error_iff ⟨dek, tenant, rows⟩ _ cause).mpr
        ⟨front, site, back, split, before, first⟩]
    rfl

theorem resolve_iff_resolution (ring : Keyring) (document : Json) (tenant : String)
    (rows : List Record) (stored : StoredDek) (host : Host) (result : Except FieldError Json)
    (wellFormed : document.WellFormed) :
    (resolve ring document tenant rows stored host).1 = result ↔
      Resolution ring document tenant rows stored result := by
  rw [resolve_fst]
  exact ⟨fun eq => eq ▸ resolution_resolved ring document tenant rows stored wellFormed,
    resolved_of_resolution ring document tenant rows stored result wellFormed⟩

theorem resolve_stray_marker :
    (Json.obj [("at", .obj [("enc_ref", .str "stray")])]).WellFormed ∧
      (resolve (Keyring.ofKey (Sized.zero 32)) (.obj [("at", .obj [("enc_ref", .str "stray")])])
        "acme" [⟨"other", "/at", [], [], "", "AES-256-GCM", "", Timestamp.epoch⟩]
        (StoredDek.ofWrapped
          ((Keyring.ofKey (Sized.zero 32)).wrappedWith ⟨Sized.zero 32⟩ (Sized.zero 12)))
        ⟨⟨UInt8.ofNat, 0, none⟩, .epoch, []⟩).1 = .error (.missingRow "stray") := by
  have wellFormed : (Json.obj [("at", .obj [("enc_ref", .str "stray")])]).WellFormed := by
    simp [Json.WellFormed, Json.MembersWellFormed, Table.keys]
  refine ⟨wellFormed, (resolve_iff_resolution _ _ _ _ _ _ _ wellFormed).mpr ?_⟩
  have unwrapped := Keyring.unwrap_wrapped_with (Keyring.ofKey (Sized.zero 32)) ⟨Sized.zero 32⟩
    (Sized.zero 12)
  exact .failed (by simp) ⟨Sized.zero 32⟩ (unwraps_of_wrapped _ _ _ unwrapped) [] []
    ⟨["at"], [("enc_ref", .str "stray")], "stray"⟩ rfl (by simp) _ (.missingRow (by simp))

end Envelope
