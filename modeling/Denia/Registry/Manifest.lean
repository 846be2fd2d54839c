/-
  Denia.Registry.Manifest — what a manifest body refers to.

  `serde_json` is outside the repository: its `Value` is the type below, and its
  `from_slice` is a parameter of everything that parses a body.  `gc.rs` and
  `api_v2.rs` walk the parsed value the same way: `config.digest`,
  `layers[].digest` and `manifests[].digest`, each one silently skipped when a
  field is missing or has another type.
-/
import Denia.Registry.Storage

namespace Denia.Registry

/-- `serde_json::Value`. -/
inductive Json where
  | null
  | bool (b : Bool)
  | number (repr : String)
  | string (s : String)
  | array (items : List Json)
  | object (fields : List (String × Json))

namespace Json

/-- `Value::get` with a string index. -/
def get (v : Json) (key : String) : Option Json :=
  match v with
  | .object fields => fields.lookup key
  | _ => none

/-- `Value::as_str`. -/
def asStr : Json → Option String
  | .string s => some s
  | _ => none

/-- `Value::as_array`. -/
def asArray : Json → Option (List Json)
  | .array items => some items
  | _ => none

/-- `v.get("digest").and_then(|d| d.as_str())`. -/
def digest (v : Json) : Option String := (v.get "digest").bind asStr

/-- The digests of the entries of the array field `key`. -/
def digestsOf (v : Json) (key : String) : List String :=
  (((v.get key).bind asArray).getD []).filterMap digest

end Json

/-- `config.digest`. -/
def configDigest (v : Json) : Option String := (v.get "config").bind Json.digest

/-- `layers[].digest`. -/
def layerDigests (v : Json) : List String := v.digestsOf "layers"

/-- `manifests[].digest`, the sub-manifests of an index. -/
def subManifestDigests (v : Json) : List String := v.digestsOf "manifests"

/-- The config and layer digests of a body. -/
def contentDigests (v : Json) : List String :=
  (configDigest v).toList ++ layerDigests v

/-- `parse_referenced_digests`, past the JSON parse: every digest a body names. -/
def referencedDigests (v : Json) : List String :=
  contentDigests v ++ subManifestDigests v

/-- The parsed form of `digestBytes`. -/
def digestJson (name : String) : Json := .object [("digest", .string (digestOf name))]

/-- The parsed form of `arrayBody`. -/
def arrayJson (field name : String) : Json := .object [(field, .array [digestJson name])]

/-- `serde_json::from_slice` on the contents of the registry's examples. -/
def parseExample (b : Bytes) : Option Json :=
  if b = arrayBody "layers" layerName then some (arrayJson "layers" layerName)
  else if b = arrayBody "manifests" imageName then some (arrayJson "manifests" imageName)
  else if b = ascii "\x7b\x7d" then some (.object [])
  else none

end Denia.Registry
