import DocStore.Config
import DocStore.Message.Queries
import DocStore.Schema.Extraction

/-! Schemas, index entries and configurations as messages. What is received is not checked beyond its form. -/

namespace DocStore.Message

open Json Decoder

/-! ### Schemas -/

def ofMember (m : Member) : Json :=
  .object [("member_path", .string m.path), ("data_type", .string m.declared), ("data_type_code", .string m.code.name),
    ("is_unique", .bool m.unique), ("is_enumerable", .bool m.enumerable)]

def member : Decoder Member := fun d t =>
  match fields ["member_path", "data_type", "data_type_code", "is_unique", "is_enumerable"] d t with
  | some ([path, declared, tag, unique, enumerable], d) => do
    pure ⟨← required string d path, ← required string d declared, ← required code d tag, ← required bool d unique,
      ← required bool d enumerable⟩
  | _ => none

def ofSchema (s : Schema) : Json :=
  .object [("key", .string s.key.text), ("namespace", .string s.ns), ("name", .string s.name),
    ("id_type", .string s.idType.name), ("members", .object (s.members.map fun m => (m.path, ofMember m))),
    ("fingerprint", .string s.fingerprint)]

def schema : Decoder Schema := fun d t =>
  match fields ["key", "namespace", "name", "id_type", "members", "fingerprint"] d t with
  | some ([key, ns, name, idType, members, fingerprint], d) => do
    pure ⟨⟨← required string d key⟩, ← required string d ns, ← required string d name,
      ← required (named IdType.ofName?) d idType, (← required (table member) d members).map (·.2),
      ← required string d fingerprint⟩
  | _ => none

def ofIndexEntry (e : IndexEntry) : Json :=
  .object [("member_path", .string e.path), ("data_type_code", .string e.code.name), ("value", ofValue e.value)]

/-! ### Configurations -/

def modeOfName? (s : String) : Option ConsumeMode :=
  [ConsumeMode.readOnly, .update, .ignore].find? (·.name == s)

def ofConfig (c : Config) : Json :=
  .object [("name", .string c.name),
    ("cache", .object [("enabled", .bool c.cache.enabled), ("auto_enable", .bool c.cache.autoEnable),
      ("consume_mode", .string c.cache.mode.name), ("enabled_structures", strings c.cache.structures)]),
    ("serializer", .object [("excluded_members", strings c.excluded)])]

def cacheConfig : Decoder CacheConfig := fun d t =>
  match fields ["enabled", "auto_enable", "consume_mode", "enabled_structures"] d t with
  | some ([enabled, auto, mode, structures], d) => do
    pure ⟨← required bool d enabled, ← required bool d auto, ← required (named modeOfName?) d mode,
      ← required (list string) d structures⟩
  | _ => none

def excludedMembers : Decoder (List String) := fun d t =>
  match fields ["excluded_members"] d t with
  | some ([excluded], d) => required (list string) d excluded
  | _ => none

def config : Decoder Config := fun d t =>
  match fields ["name", "cache", "serializer"] d t with
  | some ([name, cache, serializer], d) => do
    pure ⟨← required string d name, ← required cacheConfig d cache, ← required excludedMembers d serializer⟩
  | _ => none

end DocStore.Message
