import NetworkModule.Database.Bootstrap
import NetworkModule.Lib.Terminated

/-!
# What the manifest hash is a hash of

`ComputeManifestHash` runs a round of FNV-1a for every byte of the name of the module, and of the
path and the content of each script.  `AppendHash` closes each of these strings with a round for
the byte 255.  No length is hashed.

The rounds are a parameter of `Manifest.feed`.  With those of FNV-1a it is the hash, and with
rounds that record the bytes it is the sequence of bytes that the hash is made from.
`manifestHash_preimage` says that this sequence determines the manifest as long as no string has a
byte 255.  The texts of `Bootstrap` have none, since they are UTF-8
(`computeManifestHash_eq_ok_iff`, `noSeparator_ofTexts`).
-/

namespace NetworkModule.Database.Bootstrap

open Terminated

/-! ## Strings of bytes -/

/-- A script of a module, and what `SqlScriptRunner::LoadScript` gives for it. -/
structure Script where
  scriptPath : List UInt8
  content : List UInt8
  deriving DecidableEq, Repr

/-- The strings that `ComputeManifestHash` hashes. -/
structure Manifest where
  moduleName : List UInt8
  scripts : List Script
  deriving DecidableEq, Repr

/-- The byte with which `AppendHash` closes a string. -/
def separator : UInt8 := 0xff

section
variable {σ : Type*}

/-- `Detail::AppendHash`, with any rounds. -/
def appendHashWith (round : σ → UInt8 → σ) (current : σ) (value : List UInt8) : σ :=
  round (value.foldl round current) separator

/-- The loop over the scripts in `Detail::ComputeManifestHash`, with any rounds. -/
def hashScriptsWith (round : σ → UInt8 → σ) : σ → List Script → σ
  | current, [] => current
  | current, script :: rest =>
      hashScriptsWith round
        (appendHashWith round (appendHashWith round current script.scriptPath) script.content) rest

/-- The rounds of `Detail::ComputeManifestHash`. -/
def Manifest.feed (round : σ → UInt8 → σ) (current : σ) (m : Manifest) : σ :=
  hashScriptsWith round (appendHashWith round current m.moduleName) m.scripts

end

/-- A round of FNV-1a. -/
def fnvRound (current : UInt64) (c : UInt8) : UInt64 := (current ^^^ c.toUInt64) * 1099511628211

/-- `Detail::ComputeManifestHash` for strings of bytes. -/
def Manifest.hash (m : Manifest) : String := toHexString (m.feed fnvRound 1469598103934665603)

/-- The bytes that are fed into the rounds, in order. -/
def Manifest.preimage (m : Manifest) : List UInt8 := m.feed (fun fed c => fed ++ [c]) []

/-- The strings, in the order in which they are hashed. -/
def Manifest.fields (m : Manifest) : List (List UInt8) :=
  m.moduleName :: m.scripts.flatMap fun script => [script.scriptPath, script.content]

/-- No string has the byte that closes one. -/
def Manifest.NoSeparator (m : Manifest) : Prop := ∀ field ∈ m.fields, separator ∉ field

/-! ## The rounds -/

section
variable {σ : Type*} (round : σ → UInt8 → σ)

theorem appendHashWith_eq_foldl (current : σ) (value : List UInt8) :
    appendHashWith round current value = (value ++ [separator]).foldl round current := by
  rw [appendHashWith, List.foldl_append]
  rfl

theorem hashScriptsWith_eq_foldl (current : σ) (scripts : List Script) :
    hashScriptsWith round current scripts =
      (terminated separator
        (scripts.flatMap fun script => [script.scriptPath, script.content])).foldl
          round current := by
  induction scripts generalizing current with
  | nil => rfl
  | cons script rest ih =>
      rw [hashScriptsWith, ih, appendHashWith_eq_foldl, appendHashWith_eq_foldl,
        ← List.foldl_append, ← List.foldl_append, List.flatMap_cons, terminated_append,
        List.append_assoc]
      simp only [terminated_cons, terminated_nil, List.append_assoc, List.cons_append,
        List.nil_append]

/-- Whatever the rounds are, they get the fields with a terminator. -/
theorem feed_eq_foldl (current : σ) (m : Manifest) :
    m.feed round current = (terminated separator m.fields).foldl round current := by
  rw [Manifest.feed, hashScriptsWith_eq_foldl, appendHashWith_eq_foldl, ← List.foldl_append,
    Manifest.fields, terminated_cons, List.append_assoc]
  rfl

end

theorem preimage_eq_terminated (m : Manifest) : m.preimage = terminated separator m.fields := by
  have hrecord : ∀ bytes fed : List UInt8,
      bytes.foldl (fun fed c => fed ++ [c]) fed = fed ++ bytes := by
    intro bytes
    induction bytes with
    | nil => exact fun fed => (List.append_nil fed).symm
    | cons c bytes ih =>
        intro fed
        rw [List.foldl_cons, ih, List.append_assoc]
        rfl
  rw [Manifest.preimage, feed_eq_foldl, hrecord, List.nil_append]

/-! ## The manifest from its bytes -/

/-- The fields determine the manifest: after the name, paths and contents alternate. -/
theorem fields_injective : Function.Injective Manifest.fields := by
  have hscripts : Function.Injective fun scripts : List Script =>
      scripts.flatMap fun script => [script.scriptPath, script.content] := by
    intro scripts scripts' h
    induction scripts generalizing scripts' with
    | nil =>
        cases scripts' with
        | nil => rfl
        | cons script' rest' => cases h
    | cons script rest ih =>
        cases scripts' with
        | nil => cases h
        | cons script' rest' =>
            obtain ⟨hpath, h⟩ := List.cons.inj h
            obtain ⟨hcontent, h⟩ := List.cons.inj h
            rw [ih h]
            cases script
            cases script'
            cases hpath
            cases hcontent
            rfl
  rintro ⟨name, scripts⟩ ⟨name', scripts'⟩ h
  obtain ⟨hname, h⟩ := List.cons.inj h
  cases hname
  exact congrArg (Manifest.mk name) (hscripts h)

/-- The bytes determine a manifest without the separator. -/
theorem injOn_preimage : Set.InjOn Manifest.preimage {m | m.NoSeparator} := by
  intro m h m' h' heq
  rw [preimage_eq_terminated, preimage_eq_terminated] at heq
  exact fields_injective (terminated_injOn separator h h' heq)

theorem hash_eq_foldl (m : Manifest) :
    m.hash = toHexString (m.preimage.foldl fnvRound 1469598103934665603) := by
  rw [Manifest.hash, feed_eq_foldl, preimage_eq_terminated]

/-- The hash is made from the preimage, and two different manifests never have the same one. -/
theorem manifestHash_preimage :
    (∀ m : Manifest, m.hash = toHexString (m.preimage.foldl fnvRound 1469598103934665603)) ∧
      Set.InjOn Manifest.preimage {m | m.NoSeparator} :=
  ⟨hash_eq_foldl, injOn_preimage⟩

/-- A byte goes from the path of a script to its content. -/
example : (⟨[1], [⟨[2, 3], [4]⟩]⟩ : Manifest).preimage ≠
    (⟨[1], [⟨[2], [3, 4]⟩]⟩ : Manifest).preimage := by
  decide

/-- With the separator in the name, a module without scripts has the bytes of one with a script. -/
example : (⟨[1], [⟨[2], [3]⟩]⟩ : Manifest).preimage =
    (⟨[1, separator, 2, separator, 3], []⟩ : Manifest).preimage := by
  decide

/-! ## Texts -/

/-- The bytes of a text. -/
def utf8 (text : String) : List UInt8 := text.toUTF8.data.toList

/-- The manifest of a module and the texts of its scripts. -/
def Manifest.ofTexts (moduleName : String) (scripts : List (String × String)) : Manifest where
  moduleName := utf8 moduleName
  scripts := scripts.map fun script => ⟨utf8 script.1, utf8 script.2⟩

theorem appendHash_eq (current : UInt64) (value : String) :
    appendHash current value = appendHashWith fnvRound current (utf8 value) := rfl

/-- The byte 255 does not occur in UTF-8. -/
theorem separator_notMem_utf8EncodeChar (c : Char) : separator ∉ String.utf8EncodeChar c := by
  have hne : ∀ n < 255, separator ≠ UInt8.ofNat n := by
    intro n hn heq
    have hnat := congrArg UInt8.toNat heq
    rw [UInt8.toNat_ofNat', Nat.mod_eq_of_lt (hn.trans (by decide))] at hnat
    exact absurd hnat (Nat.ne_of_gt hn)
  unfold String.utf8EncodeChar
  dsimp only
  split
  · simp only [List.mem_cons, List.not_mem_nil, or_false]
    exact hne _ (by omega)
  · split
    · simp only [List.mem_cons, List.not_mem_nil, or_false, not_or]
      exact ⟨hne _ (by omega), hne _ (by omega)⟩
    · split
      · simp only [List.mem_cons, List.not_mem_nil, or_false, not_or]
        exact ⟨hne _ (by omega), hne _ (by omega), hne _ (by omega)⟩
      · simp only [List.mem_cons, List.not_mem_nil, or_false, not_or]
        exact ⟨hne _ (by omega), hne _ (by omega), hne _ (by omega), hne _ (by omega)⟩

theorem separator_notMem_utf8 (text : String) : separator ∉ utf8 text := by
  rw [utf8, String.toUTF8_eq_toByteArray, ← String.utf8Encode_toList, List.utf8Encode,
    List.toList_data_toByteArray, List.mem_flatMap]
  rintro ⟨c, -, hc⟩
  exact separator_notMem_utf8EncodeChar c hc

theorem noSeparator_ofTexts (moduleName : String) (scripts : List (String × String)) :
    (Manifest.ofTexts moduleName scripts).NoSeparator := by
  refine List.forall_mem_cons.mpr ⟨separator_notMem_utf8 moduleName, fun field hfield => ?_⟩
  obtain ⟨script, hscript, hmem⟩ := List.mem_flatMap.mp hfield
  obtain ⟨texts, -, rfl⟩ := List.mem_map.mp hscript
  rcases List.mem_pair.mp hmem with rfl | rfl
  · exact separator_notMem_utf8 texts.1
  · exact separator_notMem_utf8 texts.2

theorem utf8_injective : Function.Injective utf8 := by
  intro text text' h
  rw [utf8, utf8, Array.toList_inj, String.toUTF8_eq_toByteArray, String.toUTF8_eq_toByteArray] at h
  exact String.toByteArray_inj.mp (ByteArray.ext h)

/-- Texts that are hashed from the same bytes are the same texts. -/
theorem texts_of_preimage {moduleName moduleName' : String}
    {scripts scripts' : List (String × String)}
    (h : (Manifest.ofTexts moduleName scripts).preimage =
      (Manifest.ofTexts moduleName' scripts').preimage) :
    moduleName = moduleName' ∧ scripts = scripts' := by
  have hsame := injOn_preimage (noSeparator_ofTexts _ _) (noSeparator_ofTexts _ _) h
  obtain ⟨hname, hscripts⟩ := Manifest.mk.inj hsame
  refine ⟨utf8_injective hname, List.map_injective_iff.mpr ?_ hscripts⟩
  rintro ⟨path, content⟩ ⟨path', content'⟩ heq
  obtain ⟨hpath, hcontent⟩ := Script.mk.inj heq
  exact Prod.ext (utf8_injective hpath) (utf8_injective hcontent)

/-- The loop over the scripts loads each of them and hashes the path and the text. -/
theorem hashScripts_eq_ok_iff (loadScript : String → Except String String) (paths : List String)
    (current result : UInt64) :
    hashScripts loadScript current paths = .ok result ↔
      ∃ texts, List.Forall₂ (fun path text => loadScript path = .ok text) paths texts ∧
        result = hashScriptsWith fnvRound current
          ((paths.zip texts).map fun script => ⟨utf8 script.1, utf8 script.2⟩) := by
  induction paths generalizing current with
  | nil =>
      rw [hashScripts]
      constructor
      · intro h
        cases h
        exact ⟨[], .nil, rfl⟩
      · rintro ⟨texts, hload, rfl⟩
        rfl
  | cons path paths ih =>
      rw [hashScripts]
      cases hpath : loadScript path with
      | error what =>
          refine iff_of_false (fun h => by cases h) ?_
          rintro ⟨texts, hload, -⟩
          cases hload with
          | cons hfirst _ =>
              rw [hpath] at hfirst
              cases hfirst
      | ok text =>
          dsimp only
          rw [ih, appendHash_eq, appendHash_eq]
          constructor
          · rintro ⟨texts, hload, rfl⟩
            exact ⟨text :: texts, .cons hpath hload, rfl⟩
          · rintro ⟨texts, hload, rfl⟩
            cases hload with
            | cons hfirst hrest =>
                rw [hpath] at hfirst
                cases hfirst
                exact ⟨_, hrest, rfl⟩

/-- `ComputeManifestHash` gives the hash of the manifest that it loads. -/
theorem computeManifestHash_eq_ok_iff (c : Call) (hash : String) :
    computeManifestHash c = .ok hash ↔
      ∃ texts, List.Forall₂ (fun path text => c.loadScript path = .ok text) c.spec.managedScripts
          texts ∧
        hash = (Manifest.ofTexts c.spec.moduleName (c.spec.managedScripts.zip texts)).hash := by
  have hiff := hashScripts_eq_ok_iff c.loadScript c.spec.managedScripts
    (appendHash 1469598103934665603 c.spec.moduleName)
  rw [computeManifestHash]
  cases hscripts : hashScripts c.loadScript (appendHash 1469598103934665603 c.spec.moduleName)
      c.spec.managedScripts with
  | error what =>
      refine iff_of_false (fun h => by cases h) ?_
      rintro ⟨texts, hload, -⟩
      have hok := (hiff _).mpr ⟨texts, hload, rfl⟩
      rw [hscripts] at hok
      cases hok
  | ok result =>
      obtain ⟨texts, hload, rfl⟩ := (hiff result).mp hscripts
      constructor
      · intro h
        cases h
        exact ⟨texts, hload, rfl⟩
      · rintro ⟨texts', hload', rfl⟩
        have hok := (hiff _).mpr ⟨texts', hload', rfl⟩
        rw [hscripts] at hok
        exact congrArg (fun result : Except String UInt64 => result.map toHexString) hok

end NetworkModule.Database.Bootstrap
