import Envelope.Keyring.Settings
import Envelope.Proofs.Json.TextMap
import Envelope.Proofs.Keyring.Construction
import Envelope.Proofs.Text

set_option autoImplicit false

namespace Envelope

namespace KeyringSettings

def Given (lookup : String → Option String) (name text : String) : Prop :=
  lookup name = some text ∧ ∃ c ∈ text.toList, Text.isBlank c = false

def Missing (lookup : String → Option String) (name : String) : Prop :=
  ∀ text, lookup name = some text → ∀ c ∈ text.toList, Text.isBlank c = true

inductive Asks (lookup : String → Option String) : String → Prop where
  | named (text : String) (given : Given lookup activeKeyIdVariable text) :
    Asks lookup (Text.trim text)
  | unnamed (missing : Missing lookup activeKeyIdVariable) : Asks lookup Keyring.defaultId

-- The map that an object with these members stands for: in the order of the ids, the last text of each.
structure Gathers (members map : Table String) : Prop where
  ascending : Table.Ascending map
  last : ∀ id, Table.get? map id = Keyring.lastText? members id

theorem given_iff (lookup : String → Option String) (name text : String) :
    Given lookup name text ↔ setting? lookup name = some text := by
  rw [setting?, Option.filter_eq_some_iff, Given, Text.isBlankText, Bool.not_eq_true',
    List.all_eq_false]
  simp only [Bool.not_eq_true]

theorem missing_iff (lookup : String → Option String) (name : String) :
    Missing lookup name ↔ setting? lookup name = none := by
  rw [setting?, Option.filter_eq_none_iff, Missing]
  simp only [Text.isBlankText, Bool.not_eq_true', Bool.not_eq_false, List.all_eq_true]

theorem gathers_iff (members map : Table String) : Gathers members map ↔ map = Table.sorted members := by
  constructor
  · intro gathers
    apply Table.eq_of_ascending map _ gathers.ascending (Table.ascending_sorted members)
    intro id
    rw [gathers.last, Table.get?_sorted_eq_last, Keyring.lastText?]
  · rintro rfl
    exact ⟨Table.ascending_sorted members, Table.get?_sorted_eq_last members⟩

theorem asks_iff (lookup : String → Option String) (requested : String) :
    Asks lookup requested ↔
      ((setting? lookup activeKeyIdVariable).map Text.trim).getD Keyring.defaultId = requested := by
  constructor
  · intro asks
    cases asks with
    | named text given => rw [(given_iff _ _ _).mp given, Option.map_some, Option.getD_some]
    | unnamed missing => rw [(missing_iff _ _).mp missing, Option.map_none, Option.getD_none]
  · rintro rfl
    cases said : setting? lookup activeKeyIdVariable with
    | none => exact .unnamed ((missing_iff _ _).mpr said)
    | some text => exact .named text ((given_iff _ _ _).mpr said)

theorem exists_asks (lookup : String → Option String) : ∃ requested, Asks lookup requested :=
  ⟨_, (asks_iff lookup _).mpr rfl⟩

theorem asks_unique (lookup : String → Option String) (one other : String) (first : Asks lookup one)
    (second : Asks lookup other) : one = other :=
  ((asks_iff lookup one).mp first).symm.trans ((asks_iff lookup other).mp second)

theorem trim_of_asks (lookup : String → Option String) (id requested : String)
    (set : lookup activeKeyIdVariable = some id) (asks : Asks lookup requested)
    (same : requested = id) : Text.trim id = id := by
  cases asks with
  | named text given =>
    have own : text = id := Option.some.inj (given.1.symm.trans set)
    subst own
    exact same
  | unnamed missing =>
    -- The id that is asked for by default is no white space.
    have blank := missing id set
    rw [← same] at blank
    exact absurd (blank 'd' (by decide)) (by decide)

theorem asks_id_iff (lookup : String → Option String) (id : String)
    (set : lookup activeKeyIdVariable = some id) (filled : id ≠ "") :
    Asks lookup id ↔ Text.SolidEnds id.toList := by
  rw [← Text.trim_eq_self_iff]
  constructor
  · exact fun asks => trim_of_asks lookup id id set asks rfl
  · intro whole
    have visible : ∃ c ∈ id.toList, Text.isBlank c = false := by
      by_contra blank
      simp only [not_exists, not_and, Bool.not_eq_false] at blank
      exact filled (whole.symm.trans (Text.trim_of_blank id blank))
    have asks : Asks lookup (Text.trim id) := .named id ⟨set, visible⟩
    rwa [whole] at asks

theorem of_lookup_of_missing (lookup : String → Option String)
    (missing : Missing lookup keyringVariable) :
    ofLookup lookup = .ok ⟨(setting? lookup masterKeyVariable).map Text.trim, none,
      (setting? lookup activeKeyIdVariable).map Text.trim⟩ := by
  rw [ofLookup, (missing_iff _ _).mp missing]

theorem of_lookup_of_object (lookup : String → Option String) (text : String) (members : Table String)
    (given : Given lookup keyringVariable text) (written : Json.ObjectText members text) :
    ofLookup lookup = .ok ⟨(setting? lookup masterKeyVariable).map Text.trim,
      some (Table.sorted members), (setting? lookup activeKeyIdVariable).map Text.trim⟩ := by
  have read := (Json.text_map?_parse?_iff text (Table.sorted members)).mpr ⟨members, written, rfl⟩
  rw [ofLookup, (given_iff _ _ _).mp given]
  simp only [read]

theorem of_lookup_of_foreign (lookup : String → Option String) (text : String)
    (given : Given lookup keyringVariable text)
    (foreign : ¬ ∃ members, Json.ObjectText members text) :
    ofLookup lookup = .error (.keyring (.notStrings keyringVariable)) := by
  have unread : (Json.Raw.parse? text).bind Json.Raw.textMap? = none := by
    refine Option.eq_none_iff_forall_ne_some.mpr fun map read => foreign ?_
    obtain ⟨members, written, -⟩ := (Json.text_map?_parse?_iff text map).mp read
    exact ⟨members, written⟩
  rw [ofLookup, (given_iff _ _ _).mp given]
  simp only [unread]

theorem of_lookup_eq_error_iff (lookup : String → Option String) (text : String)
    (given : Given lookup keyringVariable text) (cause : CryptoError) :
    ofLookup lookup = .error cause ↔
      cause = .keyring (.notStrings keyringVariable) ∧ ¬ ∃ members, Json.ObjectText members text := by
  by_cases readable : ∃ members, Json.ObjectText members text
  · obtain ⟨members, written⟩ := readable
    rw [of_lookup_of_object lookup text members given written]
    exact iff_of_false nofun fun foreign => foreign.2 ⟨members, written⟩
  · rw [of_lookup_of_foreign lookup text given readable, Except.error.injEq, eq_comm]
    exact (and_iff_left readable).symm

theorem of_lookup_congr (lookup other : String → Option String)
    (same : ∀ name ∈ [keyringVariable, masterKeyVariable, activeKeyIdVariable],
      other name = lookup name) : ofLookup other = ofLookup lookup := by
  simp only [List.forall_mem_cons, List.not_mem_nil, false_implies, implies_true, and_true] at same
  obtain ⟨keyring, master, active⟩ := same
  simp only [ofLookup, setting?, keyring, master, active]

theorem given_of_written (lookup : String → Option String) (name text : String)
    (members : Table String) (set : lookup name = some text)
    (written : Json.ObjectText members text) : Given lookup name text := by
  obtain ⟨before, inner, behind, -, -, eq, -⟩ := written
  refine ⟨set, '{', ?_, rfl⟩
  rw [eq]
  exact List.mem_append_right _ List.mem_cons_self

end KeyringSettings

namespace Keyring

open KeyringSettings

theorem load_settings_of_object (lookup : String → Option String) (text requested : String)
    (members map : Table String) (given : Given lookup keyringVariable text)
    (written : Json.ObjectText members text) (gathers : Gathers members map)
    (asks : Asks lookup requested) :
    ∃ config, ofLookup lookup = .ok config ∧ loadSettings config = load map requested := by
  refine ⟨_, of_lookup_of_object lookup text members given written, ?_⟩
  rw [(gathers_iff members map).mp gathers, ← (asks_iff lookup requested).mp asks]
  rfl

/-- Where there are keys by id, they make the ring, and if they cannot be read nothing does: the master
key is not looked at. Without them it is the only key of the ring, and is active. Other variables than
the three are never looked at. -/
theorem load_settings_of_lookup (lookup : String → Option String) :
    (∀ text, Given lookup keyringVariable text →
      (∀ cause, ofLookup lookup = .error cause ↔
        cause = .keyring (.notStrings keyringVariable) ∧ ¬ ∃ members, Json.ObjectText members text) ∧
      ∀ members, Json.ObjectText members text → ∃ config map requested,
        ofLookup lookup = .ok config ∧ Gathers members map ∧ Asks lookup requested ∧
          loadSettings config = load map requested ∧
          (members = [] → ∀ host, loadSettings config host = (.error (.keyring .empty), host))) ∧
      (Missing lookup keyringVariable → ∃ config, ofLookup lookup = .ok config ∧
        (∀ text, Given lookup masterKeyVariable text →
          loadSettings config = load [(defaultId, Text.trim text)] defaultId) ∧
        (Missing lookup masterKeyVariable →
          ∀ host, loadSettings config host = (.error (.keyring .unconfigured), host))) ∧
      ∀ other : String → Option String,
        (∀ name ∈ [keyringVariable, masterKeyVariable, activeKeyIdVariable],
          other name = lookup name) → ofLookup other = ofLookup lookup := by
  refine ⟨fun text given => ⟨of_lookup_eq_error_iff lookup text given, fun members written => ?_⟩,
    fun missing => ?_, of_lookup_congr lookup⟩
  · have gathers := (gathers_iff members _).mpr rfl
    obtain ⟨requested, asks⟩ := exists_asks lookup
    obtain ⟨config, read, loads⟩ :=
      load_settings_of_object lookup text requested members _ given written gathers asks
    refine ⟨config, _, requested, read, gathers, asks, loads, fun none host => ?_⟩
    subst none
    rw [loads]
    exact load_of_error [] requested .empty (of_entries_nil requested) host
  · refine ⟨_, of_lookup_of_missing lookup missing, fun text given => ?_, fun none host => ?_⟩
    · rw [(given_iff _ _ _).mp given]
      rfl
    · rw [(missing_iff _ _).mp none]
      rfl

theorem plain_text_encode (bytes : Bytes) : Json.PlainText (Base64.encode bytes) := by
  have plain : ∀ d : Fin 64, 0x20 ≤ (Base64.digitChar d).toNat ∧ Base64.digitChar d ≠ '"' ∧
      Base64.digitChar d ≠ '\\' := by decide
  obtain ⟨digits, pads, padded, -⟩ := Base64.padded_encode_chars bytes
  intro c member
  rw [Base64.encode, String.toList_ofList] at member
  rcases Base64.cases_of_mem_padded _ digits pads padded c member with ⟨d, rfl⟩ | rfl
  · exact plain d
  · decide

-- One id comes twice, and another ends in a space.
def spacedMembers : Table String :=
  [("k1", keyText 1), ("k1 ", keyText 2), ("k1", keyText 3)]

def spacedText : String :=
  "\x7b\"k1\":\"" ++ keyText 1 ++ "\",\"k1 \":\"" ++ keyText 2 ++ "\",\"k1\":\"" ++ keyText 3 ++
    "\"\x7d"

def spacedMap : Table String :=
  [("k1", keyText 3), ("k1 ", keyText 2)]

theorem object_text_spaced : Json.ObjectText spacedMembers spacedText := by
  have plain (byte : UInt8) : Json.PlainText (keyText byte) := plain_text_encode _
  have first := Json.member_text_of_plain "k1" (keyText 1) (by simp [Json.PlainText]) (plain 1)
  have second := Json.member_text_of_plain "k1 " (keyText 2) (by simp [Json.PlainText]) (plain 2)
  have third := Json.member_text_of_plain "k1" (keyText 3) (by simp [Json.PlainText]) (plain 3)
  refine ⟨[], _, [], Json.gap_nil, Json.gap_nil, ?_,
    .inr (.more _ _ _ _ first (.more _ _ _ _ second (.one _ _ third)))⟩
  simp [spacedText]

theorem gathers_spaced : Gathers spacedMembers spacedMap :=
  (gathers_iff spacedMembers spacedMap).mpr rfl

-- A key stands in every variable but two.
def lookupOf (keyring named : String) (name : String) : Option String :=
  if name = keyringVariable then some keyring
  else if name = activeKeyIdVariable then some named
  else some (keyText 9)

theorem load_settings_of_lookup_cases :
    (Given (lookupOf spacedText " k1 ") keyringVariable spacedText ∧
      Json.ObjectText spacedMembers spacedText ∧
      ∃ config, ofLookup (lookupOf spacedText " k1 ") = .ok config ∧
        loadSettings config = load spacedMap "k1") ∧
      (Given (lookupOf "[]" "k1") keyringVariable "[]" ∧
        (¬ ∃ members, Json.ObjectText members "[]") ∧
        ofLookup (lookupOf "[]" "k1") = .error (.keyring (.notStrings keyringVariable))) ∧
      (Json.ObjectText [] "\x7b\x7d" ∧ ∃ config, ofLookup (lookupOf "\x7b\x7d" "k1") = .ok config ∧
        ∀ host, loadSettings config host = (.error (.keyring .empty), host)) ∧
      (Missing (lookupOf " " "k1") keyringVariable ∧
        Given (lookupOf " " "k1") masterKeyVariable (keyText 9) ∧
        ∃ config, ofLookup (lookupOf " " "k1") = .ok config ∧
          loadSettings config = load [("default", Text.trim (keyText 9))] "default") ∧
      (Missing (fun _ => none) keyringVariable ∧ Missing (fun _ => none) masterKeyVariable ∧
        ∃ config, ofLookup (fun _ => none) = .ok config ∧
          ∀ host, loadSettings config host = (.error (.keyring .unconfigured), host)) ∧
      ofLookup (fun name => if name = "HOME" then none else lookupOf spacedText "k1" name) =
        ofLookup (lookupOf spacedText "k1") := by
  have given : Given (lookupOf spacedText " k1 ") keyringVariable spacedText :=
    given_of_written _ _ _ spacedMembers rfl object_text_spaced
  have foreign : ¬ ∃ members, Json.ObjectText members "[]" := by
    rintro ⟨members, before, inner, behind, -, -, eq, -⟩
    have brace : '{' ∈ "[]".toList := eq ▸ List.mem_append_right _ List.mem_cons_self
    simp at brace
  have bracket : Given (lookupOf "[]" "k1") keyringVariable "[]" := ⟨rfl, '[', by simp, rfl⟩
  have bare : Json.ObjectText [] "\x7b\x7d" :=
    ⟨[], [], [], Json.gap_nil, Json.gap_nil, by simp, .inl ⟨rfl, Json.gap_nil⟩⟩
  have braces := given_of_written (lookupOf "\x7b\x7d" "k1") keyringVariable _ [] rfl bare
  have blank : Missing (lookupOf " " "k1") keyringVariable := by
    intro text set
    cases set
    simp [Text.isBlank]
  have master : Given (lookupOf " " "k1") masterKeyVariable (keyText 9) := ⟨rfl, 'C', by decide, rfl⟩
  have unset (name : String) : Missing (fun _ => none) name := fun _ set => nomatch set
  have other := (load_settings_of_lookup (lookupOf spacedText "k1")).2.2
    (fun name => if name = "HOME" then none else lookupOf spacedText "k1" name)
    (by simp [keyringVariable, masterKeyVariable, activeKeyIdVariable])
  obtain ⟨config, map, requested, read, gathers, asks, loads, -⟩ :=
    ((load_settings_of_lookup _).1 spacedText given).2 spacedMembers object_text_spaced
  have sameMap : map = spacedMap := (gathers_iff spacedMembers map).mp gathers
  have sameId : requested = "k1" := ((asks_iff _ requested).mp asks).symm
  have failed := (((load_settings_of_lookup _).1 "[]" bracket).1 _).mpr ⟨rfl, foreign⟩
  obtain ⟨empty, _, _, readEmpty, -, -, -, failsEmpty⟩ :=
    ((load_settings_of_lookup _).1 _ braces).2 [] bare
  obtain ⟨single, readSingle, loadsSingle, -⟩ := (load_settings_of_lookup _).2.1 blank
  obtain ⟨nothing, readNothing, -, fails⟩ :=
    (load_settings_of_lookup fun _ => none).2.1 (unset keyringVariable)
  exact ⟨⟨given, object_text_spaced, config, read, sameMap ▸ sameId ▸ loads⟩,
    ⟨bracket, foreign, failed⟩, ⟨bare, empty, readEmpty, failsEmpty rfl⟩,
    ⟨blank, master, single, readSingle, loadsSingle _ master⟩,
    ⟨unset _, unset _, nothing, readNothing, fails (unset _)⟩, other⟩

theorem no_warning_iff (ring : Keyring) (requested : String) :
    (∀ event ∈ ring.loadEvents requested, event.level ≠ .warn) ↔ ring.active = requested := by
  by_cases same : ring.active = requested
  · simp [loadEvents, same]
  · simp [loadEvents, same]

theorem entry_key_active_key (map : Table String) (requested : String) (ring : Keyring)
    (ascending : Table.Ascending map) (built : Built map requested ring) :
    ∃ text, Table.get? map ring.active = some text ∧ EntryKey (ring.active, text) ring.activeKey := by
  have found : ring.keys.get? ring.active = some ring.activeKey := (Option.some_get _).symm
  obtain ⟨text, last, key⟩ := (built.keys _ _).mp found
  have differ := Table.nodup_of_ascending map ascending
  rw [lastText?, ← Table.get?_of_perm map _ (List.reverse_perm map).symm differ] at last
  exact ⟨text, last, key⟩

/-- Naming a key of the ring makes it active, and no warning is given, if and only if its id has no white
space at either end. -/
theorem named_key_active_iff (lookup : String → Option String) (text id : String)
    (members map : Table String) (written : Json.ObjectText members text)
    (gathers : Gathers members map) (accepted : ∃ requested ring, ofEntries map requested = .ok ring)
    (there : id ∈ Table.keys map) (keyring : lookup keyringVariable = some text)
    (named : lookup activeKeyIdVariable = some id) :
    ∃ config ring events, ofLookup lookup = .ok config ∧
      (∀ host, loadSettings config host = (.ok ring, { host with events := host.events ++ events })) ∧
      ((ring.active = id ∧ ∀ event ∈ events, event.level ≠ .warn) ↔ Text.SolidEnds id.toList) ∧
      ∃ keyText, Table.get? map ring.active = some keyText ∧
        EntryKey (ring.active, keyText) ring.activeKey := by
  obtain ⟨other, ring, ran⟩ := accepted
  obtain ⟨filled, good, -⟩ := (of_entries_eq_ok_iff map other ring).mp ran
  obtain ⟨requested, asks⟩ := exists_asks lookup
  obtain ⟨config, read, loads⟩ := load_settings_of_object lookup text requested members map
    (given_of_written lookup _ text members keyring written) written gathers asks
  obtain ⟨ring, ran, built⟩ := of_entries_of_good map requested filled good
  have valid : id ≠ "" := by
    obtain ⟨entry, member, rfl⟩ := List.mem_map.mp there
    obtain ⟨key, good⟩ := good entry member
    exact good.1.1
  refine ⟨config, ring, ring.loadEvents requested, read, fun host => ?_, ?_,
    entry_key_active_key map requested ring gathers.ascending built⟩
  · rw [loads]
    exact load_of_of_entries map requested ring ran host
  · rw [no_warning_iff, ← asks_id_iff lookup id named valid]
    constructor
    · intro ⟨active, same⟩
      exact (same.symm.trans active) ▸ asks
    · intro asksId
      have same : requested = id := asks_unique lookup requested id asks asksId
      have active := built.asked (same ▸ there)
      exact ⟨active.trans same, active⟩

theorem good_spaced_map : ∀ entry ∈ spacedMap, ∃ key, EntryKey entry key :=
  List.forall_mem_cons.mpr ⟨⟨_, entry_key_key_text "k1" 3 (by decide)⟩,
    List.forall_mem_singleton.mpr ⟨_, entry_key_key_text "k1 " 2 (by decide)⟩⟩

theorem named_key_active_spaced :
    (∃ requested ring, ofEntries spacedMap requested = .ok ring) ∧
      (Text.SolidEnds "k1".toList ∧ "k1" ∈ Table.keys spacedMap ∧
        ∃ config ring events, ofLookup (lookupOf spacedText "k1") = .ok config ∧
          (∀ host, loadSettings config host =
            (.ok ring, { host with events := host.events ++ events })) ∧
          ring.active = "k1" ∧ ∀ event ∈ events, event.level ≠ .warn) ∧
      ¬ Text.SolidEnds "k1 ".toList ∧ "k1 " ∈ Table.keys spacedMap ∧
      ∃ config ring events, ofLookup (lookupOf spacedText "k1 ") = .ok config ∧
        (∀ host, loadSettings config host =
          (.ok ring, { host with events := host.events ++ events })) ∧
        ¬ (ring.active = "k1 " ∧ ∀ event ∈ events, event.level ≠ .warn) := by
  obtain ⟨built, ran, -⟩ := of_entries_of_good spacedMap "k1" (List.cons_ne_nil _ _) good_spaced_map
  have accepted : ∃ requested ring, ofEntries spacedMap requested = .ok ring := ⟨_, built, ran⟩
  have solid : Text.SolidEnds "k1".toList := (Text.trim_eq_self_iff "k1").mp (by decide)
  have loose : ¬ Text.SolidEnds "k1 ".toList := fun solid =>
    absurd ((Text.trim_eq_self_iff "k1 ").mpr solid) (by decide)
  have one : "k1" ∈ Table.keys spacedMap := by decide
  have two : "k1 " ∈ Table.keys spacedMap := by decide
  obtain ⟨config, ring, events, read, loads, active, -⟩ :=
    named_key_active_iff (lookupOf spacedText "k1") spacedText "k1" spacedMembers spacedMap
      object_text_spaced gathers_spaced accepted one rfl rfl
  obtain ⟨other, fallback, reported, readOther, loadsOther, inactive, -⟩ :=
    named_key_active_iff (lookupOf spacedText "k1 ") spacedText "k1 " spacedMembers spacedMap
      object_text_spaced gathers_spaced accepted two rfl rfl
  exact ⟨accepted, ⟨solid, one, config, ring, events, read, loads, active.mpr solid⟩, loose, two,
    other, fallback, reported, readOther, loadsOther, fun asked => loose (inactive.mp asked)⟩

-- The id that ends in a space is a key of the ring, yet naming it makes another key active.
theorem spaced_key_not_active :
    Json.ObjectText spacedMembers spacedText ∧ Gathers spacedMembers spacedMap ∧
      (∃ requested ring, ofEntries spacedMap requested = .ok ring) ∧ "k1 " ∈ Table.keys spacedMap ∧
      lookupOf spacedText "k1 " keyringVariable = some spacedText ∧
      lookupOf spacedText "k1 " activeKeyIdVariable = some "k1 " ∧
      ∃ config ring, ofLookup (lookupOf spacedText "k1 ") = .ok config ∧
        (∀ host, loadSettings config host =
          (.ok ring, { host with events := host.events ++ ring.loadEvents "k1" })) ∧
        ring.active = "k1" ∧ ring.active ≠ "k1 " ∧
        ∀ event ∈ ring.loadEvents "k1", event.level ≠ .warn := by
  obtain ⟨ring, ran, built⟩ := of_entries_of_good spacedMap "k1" (List.cons_ne_nil _ _) good_spaced_map
  have given : Given (lookupOf spacedText "k1 ") keyringVariable spacedText :=
    given_of_written _ _ _ spacedMembers rfl object_text_spaced
  have asks : Asks (lookupOf spacedText "k1 ") "k1" := (asks_iff _ "k1").mpr rfl
  have active : ring.active = "k1" := built.asked (by decide)
  obtain ⟨config, read, loads⟩ := load_settings_of_object _ spacedText "k1" spacedMembers spacedMap given
    object_text_spaced gathers_spaced asks
  refine ⟨object_text_spaced, gathers_spaced, ⟨_, ring, ran⟩, by decide, rfl, rfl, config, ring, read,
    fun host => ?_, active, by rw [active]; decide, (no_warning_iff ring "k1").mpr active⟩
  rw [loads]
  exact load_of_of_entries spacedMap "k1" ring ran host

end Keyring

end Envelope
