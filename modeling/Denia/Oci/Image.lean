/-
  Denia.Oci.Image — what an image is to the rest of the daemon: its digest, its config and
  its layers (`src/oci/mod.rs`, `src/oci/config.rs`), and how they are read back from the OCI
  layout a build has written (`read_oci_layout`, `src/oci/layout.rs`).

  SHA-256 and `serde_json` are outside the repository and are a parameter (`Codec`).  What a
  path shows is an answer of the directory, the error text included: a digest of the layout is
  joined to the path as it stands.

  Main results: `readOciLayout_ofManifest`, every part of an accepted layout hashes to the
  digest that names it; `OfManifest.unique`, without collisions a digest names ONE image.
-/
import Denia.Lib.Hoare
import Denia.Registry.Manifest
import Mathlib.Data.List.GetD
import Mathlib.Data.List.Infix

namespace Denia.Oci

open Lib
open Registry (Bytes Json sha256Prefix digestOf ascii abName cName configName abImageName
  cImageName configBody imageBody arrayBody arrayJson digestJson strokes knownNames
  exampleHex exampleSha)

/-! ## §1. Images. -/

/-- `OciImageProcessConfig`. -/
structure OciImageProcessConfig where
  entrypoint : Option (List String)
  cmd : Option (List String)
  envVars : Option (List String)
  workingDir : Option String
  user : Option String

/-- `OciImageConfig`. -/
structure OciImageConfig where
  config : Option OciImageProcessConfig

/-- `LayerCompression`. -/
inductive LayerCompression where
  | gzip
  | zstd
  | none

/-- A layer of a pulled image, with the bytes of the file at its path. -/
structure PulledLayer where
  digest : String
  compression : LayerCompression
  bytes : Bytes

/-- `PulledImage`. -/
structure PulledImage where
  digest : String
  config : OciImageConfig
  layers : List PulledLayer

/-- The variants of `OciError` that a puller returns. -/
inductive PullerError where
  | pull (message : String)
  | digestMismatch (expected actual : String)
  | layout (message : String)
  | io (message : String)
  | json (message : String)

/-- `sha2` and `serde_json`.  A digest is the text `sha256:<hex>`. -/
structure Codec where
  sha256 : Bytes → String
  sha256_form : ∀ bytes, ∃ hex : List Char,
    (sha256 bytes).toList = sha256Prefix.toList ++ hex ∧ ∀ c ∈ hex, c.isAlphanum = true
  fromSlice : Bytes → Except String Json
  imageConfig : Bytes → Except String OciImageConfig

/-! ## §2. `read_oci_layout`. -/

/-- The directory a build has written: `index.json`, and what
`blobs/sha256/<name>` shows. -/
structure LayoutDir where
  index : Except String Bytes
  blob : String → Except String Bytes

/-- `strip_prefix("sha256:")`. -/
def stripSha256 (digest : String) : Option String :=
  (digest.toList.dropPrefix? sha256Prefix.toList).map String.ofList

/-- `verify_bytes_digest`; `verify_blob_digest` does the same, chunk by chunk. -/
def verifyBytesDigest (cx : Codec) (bytes : Bytes) (expected : String) : Except PullerError PUnit :=
  require (cx.sha256 bytes = expected) (.digestMismatch expected (cx.sha256 bytes))

/-- `t.contains(..)`. -/
def containsText (t part : String) : Bool := part.toList <:+: t.toList

/-- How a layer is compressed, by its media type. -/
def compressionOf (mediaType : String) : LayerCompression :=
  if containsText mediaType "gzip" ∨ containsText mediaType "+gzip" then .gzip
  else if containsText mediaType "zstd" ∨ containsText mediaType "+zstd" then .zstd
  else .none

/-- `layer["mediaType"].as_str().unwrap_or("")`. -/
def mediaTypeOf (layer : Json) : String := ((layer.get "mediaType").bind Json.asStr).getD ""

/-- One layer of `read_oci_layout`. -/
def readLayer (cx : Codec) (dir : LayoutDir) (layer : Json) : Except PullerError PulledLayer := do
  let digest ← orError layer.digest (.layout "layer missing digest")
  let hex ← orError (stripSha256 digest) (.layout ("unsupported layer digest: " ++ digest))
  let bytes ← (dir.blob hex).mapError fun e => .layout ("cannot read layer blob: " ++ e)
  verifyBytesDigest cx bytes digest
  pure ⟨digest, compressionOf (mediaTypeOf layer), bytes⟩

/-- All layers. -/
def readLayers (cx : Codec) (dir : LayoutDir) : List Json → Except PullerError (List PulledLayer)
  | [] => pure []
  | layer :: rest => do
      let read ← readLayer cx dir layer
      let others ← readLayers cx dir rest
      pure (read :: others)

/-- `manifest["layers"].as_array()`, where there is one. -/
def layerList (manifest : Json) : List Json := ((manifest.get "layers").bind Json.asArray).getD []

/-- The config blob a manifest names. -/
def readConfig (cx : Codec) (dir : LayoutDir) (manifest : Json) :
    Except PullerError OciImageConfig := do
  let digest ← orError (Registry.configDigest manifest) (.layout "config missing digest")
  let hex ← orError (stripSha256 digest) (.layout ("unsupported config digest: " ++ digest))
  let bytes ← (dir.blob hex).mapError fun e => .layout ("cannot read config blob: " ++ e)
  verifyBytesDigest cx bytes digest
  (cx.imageConfig bytes).mapError .json

/-- `read_oci_layout`. -/
def readOciLayout (cx : Codec) (dir : LayoutDir) : Except PullerError PulledImage := do
  let indexBytes ← dir.index.mapError fun e => .layout ("cannot read index.json: " ++ e)
  let index ← (cx.fromSlice indexBytes).mapError fun e => .layout ("invalid index.json: " ++ e)
  let manifests ← orError ((index.get "manifests").bind Json.asArray)
    (.layout "no manifests in index.json")
  let manifestDesc ← orError manifests.head? (.layout "empty manifests array in index.json")
  let digest ← orError manifestDesc.digest (.layout "manifest missing digest")
  let hex ← orError (stripSha256 digest) (.layout ("unsupported digest: " ++ digest))
  let manifestBytes ← (dir.blob hex).mapError fun e =>
    .layout ("cannot read manifest blob: " ++ e)
  verifyBytesDigest cx manifestBytes digest
  let manifest ← (cx.fromSlice manifestBytes).mapError fun e =>
    .layout ("invalid manifest: " ++ e)
  let config ← readConfig cx dir manifest
  let layers ← readLayers cx dir (layerList manifest)
  pure ⟨digest, config, layers⟩

/-! ## §3. Images by digest. -/

/-- The layer is the one a descriptor names, down to its bytes. -/
structure OfDescriptor (cx : Codec) (desc : Json) (layer : PulledLayer) : Prop where
  digest : desc.digest = some layer.digest
  compression : layer.compression = compressionOf (mediaTypeOf desc)
  bytes : cx.sha256 layer.bytes = layer.digest

/-- **The image is the one a manifest describes**, and its digest is the digest of the
manifest. -/
def OfManifest (cx : Codec) (image : PulledImage) : Prop :=
  ∃ manifestBytes manifest configBytes,
    cx.sha256 manifestBytes = image.digest ∧
    cx.fromSlice manifestBytes = .ok manifest ∧
    Registry.configDigest manifest = some (cx.sha256 configBytes) ∧
    cx.imageConfig configBytes = .ok image.config ∧
    List.Forall₂ (OfDescriptor cx) (layerList manifest) image.layers

variable {desc : Json} {layer : PulledLayer} {descs : List Json} {image : PulledImage}

section
variable {cx : Codec} {dir : LayoutDir}

theorem verifyBytesDigest_eq_ok {bytes : Bytes} {expected : String} {r : PUnit} :
    verifyBytesDigest cx bytes expected = .ok r ↔ cx.sha256 bytes = expected :=
  require_eq_ok

theorem readLayer_ofDescriptor (h : readLayer cx dir desc = .ok layer) :
    OfDescriptor cx desc layer := by
  unfold readLayer at h
  obtain ⟨digest, hdigest, h⟩ := bind_eq_ok.mp h
  obtain ⟨hex, -, h⟩ := bind_eq_ok.mp h
  obtain ⟨bytes, -, h⟩ := bind_eq_ok.mp h
  obtain ⟨_, hverify, h⟩ := bind_eq_ok.mp h
  cases h
  exact ⟨orError_eq_ok.mp hdigest, rfl, verifyBytesDigest_eq_ok.mp hverify⟩

variable {layers : List PulledLayer}

theorem readLayers_ofDescriptor (h : readLayers cx dir descs = .ok layers) :
    List.Forall₂ (OfDescriptor cx) descs layers := by
  induction descs generalizing layers with
  | nil =>
    cases h
    exact .nil
  | cons desc rest ih =>
    unfold readLayers at h
    obtain ⟨layer, hlayer, h⟩ := bind_eq_ok.mp h
    obtain ⟨others, hothers, h⟩ := bind_eq_ok.mp h
    cases h
    exact .cons (readLayer_ofDescriptor hlayer) (ih hothers)

theorem readConfig_ofManifest {manifest : Json} {config : OciImageConfig}
    (h : readConfig cx dir manifest = .ok config) :
    ∃ bytes, Registry.configDigest manifest = some (cx.sha256 bytes) ∧
      cx.imageConfig bytes = .ok config := by
  unfold readConfig at h
  obtain ⟨digest, hdigest, h⟩ := bind_eq_ok.mp h
  obtain ⟨hex, -, h⟩ := bind_eq_ok.mp h
  obtain ⟨bytes, -, h⟩ := bind_eq_ok.mp h
  obtain ⟨_, hverify, h⟩ := bind_eq_ok.mp h
  refine ⟨bytes, ?_, mapError_eq_ok.mp h⟩
  rw [verifyBytesDigest_eq_ok.mp hverify]
  exact orError_eq_ok.mp hdigest

/-- **What `read_oci_layout` accepts is well formed.** -/
theorem readOciLayout_ofManifest (h : readOciLayout cx dir = .ok image) : OfManifest cx image := by
  unfold readOciLayout at h
  obtain ⟨indexBytes, -, h⟩ := bind_eq_ok.mp h
  obtain ⟨index, -, h⟩ := bind_eq_ok.mp h
  obtain ⟨manifests, -, h⟩ := bind_eq_ok.mp h
  obtain ⟨manifestDesc, -, h⟩ := bind_eq_ok.mp h
  obtain ⟨digest, -, h⟩ := bind_eq_ok.mp h
  obtain ⟨hex, -, h⟩ := bind_eq_ok.mp h
  obtain ⟨manifestBytes, -, h⟩ := bind_eq_ok.mp h
  obtain ⟨_, hverify, h⟩ := bind_eq_ok.mp h
  obtain ⟨manifest, hmanifest, h⟩ := bind_eq_ok.mp h
  obtain ⟨config, hconfig, h⟩ := bind_eq_ok.mp h
  obtain ⟨layers, hlayers, h⟩ := bind_eq_ok.mp h
  cases h
  obtain ⟨configBytes, hdigest, hparsed⟩ := readConfig_ofManifest hconfig
  exact ⟨manifestBytes, manifest, configBytes, verifyBytesDigest_eq_ok.mp hverify,
    mapError_eq_ok.mp hmanifest, hdigest, hparsed, readLayers_ofDescriptor hlayers⟩

/-- A descriptor names one layer. -/
theorem OfDescriptor.unique (hinj : Function.Injective cx.sha256) {layer' : PulledLayer}
    (h : OfDescriptor cx desc layer) (h' : OfDescriptor cx desc layer') : layer = layer' := by
  have hdigest : layer.digest = layer'.digest :=
    Option.some.inj (h.digest.symm.trans h'.digest)
  have hbytes : layer.bytes = layer'.bytes := by
    apply hinj
    rw [h.bytes, h'.bytes, hdigest]
  cases layer
  cases layer'
  simp only [PulledLayer.mk.injEq]
  exact ⟨hdigest, h.compression.trans h'.compression.symm, hbytes⟩

theorem ofDescriptors_unique (hinj : Function.Injective cx.sha256) {layers' : List PulledLayer}
    (h : List.Forall₂ (OfDescriptor cx) descs layers)
    (h' : List.Forall₂ (OfDescriptor cx) descs layers') : layers = layers' := by
  induction h generalizing layers' with
  | nil =>
    cases h'
    rfl
  | cons hlayer _ ih =>
    cases h' with
    | cons hlayer' hrest' => rw [hlayer.unique hinj hlayer', ih hrest']

/-- **An image is its digest**, as long as SHA-256 has no collisions. -/
theorem OfManifest.unique (hinj : Function.Injective cx.sha256) {image' : PulledImage}
    (h : OfManifest cx image) (h' : OfManifest cx image') (hdigest : image.digest = image'.digest) :
    image = image' := by
  obtain ⟨bytes, manifest, config, hbytes, hmanifest, hconfig, hparsed, hlayers⟩ := h
  obtain ⟨bytes', manifest', config', hbytes', hmanifest', hconfig', hparsed', hlayers'⟩ := h'
  -- equal digests have equal manifests, and these name equal configs and equal layers
  obtain rfl : bytes = bytes' := by
    apply hinj
    rw [hbytes, hbytes', hdigest]
  obtain rfl : manifest = manifest' := Except.ok.inj (hmanifest.symm.trans hmanifest')
  obtain rfl : config = config' :=
    hinj (Option.some.inj (hconfig.symm.trans hconfig'))
  cases image
  cases image'
  simp only [PulledImage.mk.injEq]
  exact ⟨hdigest, Except.ok.inj (hparsed.symm.trans hparsed'),
    ofDescriptors_unique hinj hlayers hlayers'⟩

end

/-! ## §4. Two images, with the layers "ab" and "c". -/

theorem isAlphanum_exampleHex (bytes : Bytes) :
    ∀ c ∈ (exampleHex bytes).toList, c.isAlphanum = true := by
  rcases tabled_cases knownNames strokes bytes with hknown | hown
  · have hnames : knownNames.all (·.2.toList.all Char.isAlphanum) = true := by decide +kernel
    exact List.all_eq_true.mp (List.all_eq_true.mp hnames _ hknown)
  · intro c hc
    rw [exampleHex, hown, strokes, String.toList_ofList] at hc
    rw [List.eq_of_mem_replicate hc]
    decide

/-- An image: the hex digits of its manifest and of its one layer, and the layer's text. -/
structure OneLayer where
  name : String
  layer : String
  text : String

/-- The image with the layer "ab". -/
def abImage : OneLayer := ⟨abImageName, abName, "ab"⟩

/-- The image with the layer "c". -/
def cImage : OneLayer := ⟨cImageName, cName, "c"⟩

/-- `serde_json::from_slice` on the index and the manifest of an image. -/
def parseImage (bytes : Bytes) (i : OneLayer) : Option Json :=
  if bytes = arrayBody "manifests" i.name then some (arrayJson "manifests" i.name)
  else if bytes = imageBody i.layer then
    some (.object [("config", digestJson configName), ("layers", .array [digestJson i.layer])])
  else none

/-- The codec, on the files of the two images. -/
def exampleCodec : Codec where
  sha256 := exampleSha
  sha256_form bytes :=
    ⟨_, by rw [exampleSha, digestOf, String.toList_append], isAlphanum_exampleHex bytes⟩
  fromSlice bytes :=
    ([abImage, cImage].findSome? (parseImage bytes)).elim
      (.error "expected value at line 1 column 1") .ok
  imageConfig bytes :=
    if bytes = configBody then .ok ⟨some ⟨none, some ["/run"], none, none, none⟩⟩
    else .error "expected value at line 1 column 1"

/-- The layout of an image. -/
def exampleLayout (i : OneLayer) : LayoutDir where
  index := .ok (arrayBody "manifests" i.name)
  blob name :=
    if name = i.name then .ok (imageBody i.layer)
    else if name = configName then .ok configBody
    else if name = i.layer then .ok (ascii i.text)
    else .error "No such file or directory (os error 2)"

end Denia.Oci
