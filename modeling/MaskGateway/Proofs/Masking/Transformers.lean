import MaskGateway.Masking.Transformers

/-!
# `MaskGateway.Proofs.Masking.Transformers`: what the builders accept

A rule that is built has flat parameters: texts, integers and booleans, nothing nested and no double
(`flat_of_build`). `require_params` closes the set of names, and each builder checks the type of every
name in it.
-/

set_option autoImplicit false

namespace MaskGateway.Proofs.Masking

open MaskGateway.Masking MaskGateway.Lib
open MaskGateway.Datasource (Json)

/-- A text, an integer or a boolean. -/
def flat : Json → Bool
  | .str _ | .int _ | .bool _ => true
  | _ => false

section

variable {texts : Texts} {config : List (Name × Json)}

/-- A parameter is found under its name. -/
theorem lookup_of_mem {fields : List (Name × Json)} (hnodup : (fields.map Prod.fst).Nodup)
    {field : Name × Json} (h : field ∈ fields) : fields.lookup field.1 = some field.2 := by
  induction fields with
  | nil => cases h
  | cons head fields ih =>
      rw [List.map_cons, List.nodup_cons] at hnodup
      rcases List.mem_cons.mp h with rfl | h
      · exact List.lookup_cons_self
      · have hne : (field.1 == head.1) = false := by
          rw [beq_eq_false_iff_ne]
          intro heq
          exact hnodup.1 (heq ▸ List.mem_map_of_mem h)
        rw [List.lookup_cons, hne]
        exact ih hnodup.2 h

/-- What `require_params` lets through: the parameters as they are, all under known names. -/
theorem requireParams_eq_ok {required optional : List String} {params : List (Name × Json)}
    (h : requireParams texts config required optional = .ok params) :
    params = config ∧ ∀ field ∈ config, ∃ name ∈ required ++ optional, field.1 = name.toList := by
  simp only [requireParams, bind_eq_ok, refuseIf_eq_ok, pure_eq_ok, not_not] at h
  obtain ⟨_, -, _, hunknown, _, -, heq⟩ := h
  refine ⟨heq.symm, fun field hfield => ?_⟩
  have hknown := List.filter_eq_nil_iff.mp hunknown field.1 (List.mem_map_of_mem hfield)
  simp only [Bool.not_eq_true', Bool.not_eq_false, List.contains_iff_mem, List.mem_map] at hknown
  obtain ⟨name, hname, heq⟩ := hknown
  exact ⟨name, hname, heq.symm⟩

theorem requireText_eq_ok {parameter : String} {params : List (Name × Json)} {value : Name} :
    requireText parameter params = .ok value ↔ params.lookup parameter.toList = some (.str value) := by
  rw [requireText]
  split
  · rename_i text hlookup
    simp [hlookup]
  · rename_i hnot
    constructor
    · intro h
      cases h
    · intro h
      exact absurd h (hnot value)

theorem flat_of_requireInt {parameter : String} {value : Json} {n : Nat}
    (h : requireInt parameter value = .ok n) : flat value = true := by
  cases value with
  | int value => rfl
  | _ => cases h

/-- A builder that takes no parameter was given none. -/
theorem eq_nil_of_buildHash {algorithm : HashAlgorithm} {transformer : Transformer}
    (h : buildHash texts config algorithm = .ok transformer) : config = [] := by
  simp only [buildHash, bind_eq_ok, refuseIf_eq_ok, not_not] at h
  obtain ⟨_, -, _, hnil, -⟩ := h
  exact hnil

theorem eq_nil_of_checkHmacParams {u : Unit} (h : checkHmacParams texts config = .ok u) :
    config = [] := by
  simp only [checkHmacParams, bind_eq_ok, refuseIf_eq_ok, not_not] at h
  obtain ⟨_, -, hnil⟩ := h
  exact hnil

/-- Every parameter is flat where each known name has a flat value. -/
theorem flat_of_known {names : List String} (hnodup : (config.map Prod.fst).Nodup)
    (hknown : ∀ field ∈ config, ∃ name ∈ names, field.1 = name.toList)
    (hflat : ∀ name ∈ names, ∀ value, config.lookup name.toList = some value → flat value = true) :
    ∀ field ∈ config, flat field.2 = true := by
  intro field hfield
  obtain ⟨name, hname, heq⟩ := hknown field hfield
  have hlookup := lookup_of_mem hnodup hfield
  rw [heq] at hlookup
  exact hflat name hname field.2 hlookup

theorem flat_of_buildRegex {transformer : Transformer} (hnodup : (config.map Prod.fst).Nodup)
    (h : buildRegex texts config = .ok transformer) : ∀ field ∈ config, flat field.2 = true := by
  simp only [buildRegex, bind_eq_ok, requireText_eq_ok] at h
  obtain ⟨params, hparams, pattern, hpattern, replacement, hreplacement, -⟩ := h
  obtain ⟨rfl, hknown⟩ := requireParams_eq_ok hparams
  refine flat_of_known hnodup hknown fun name hname value hvalue => ?_
  simp only [List.append_nil, List.mem_cons, List.not_mem_nil, or_false] at hname
  rcases hname with rfl | rfl
  · cases hpattern.symm.trans hvalue
    rfl
  · cases hreplacement.symm.trans hvalue
    rfl

theorem flat_of_buildFixed {transformer : Transformer} (hnodup : (config.map Prod.fst).Nodup)
    (h : buildFixed texts config = .ok transformer) : ∀ field ∈ config, flat field.2 = true := by
  simp only [buildFixed, bind_eq_ok, requireText_eq_ok] at h
  obtain ⟨params, hparams, text, htext, -⟩ := h
  obtain ⟨rfl, hknown⟩ := requireParams_eq_ok hparams
  refine flat_of_known hnodup hknown fun name hname value hvalue => ?_
  rw [List.append_nil, List.mem_singleton] at hname
  subst hname
  cases htext.symm.trans hvalue
  rfl

theorem flat_of_buildTruncate {transformer : Transformer} (hnodup : (config.map Prod.fst).Nodup)
    (h : buildTruncate texts config = .ok transformer) : ∀ field ∈ config, flat field.2 = true := by
  simp only [buildTruncate, bind_eq_ok] at h
  obtain ⟨params, hparams, length, hlength, -⟩ := h
  obtain ⟨rfl, hknown⟩ := requireParams_eq_ok hparams
  refine flat_of_known hnodup hknown fun name hname value hvalue => ?_
  rw [List.append_nil, List.mem_singleton] at hname
  subst hname
  rw [hvalue, Option.getD_some] at hlength
  exact flat_of_requireInt hlength

/-- `preserve_length` is a boolean where it is given. -/
theorem flat_of_preserveLengthOf {params : List (Name × Json)} {preserve : Bool} {value : Json}
    (h : preserveLengthOf params = .ok preserve)
    (hvalue : params.lookup "preserve_length".toList = some value) : flat value = true := by
  rw [preserveLengthOf, hvalue] at h
  cases value with
  | bool value => rfl
  | _ => cases h

/-- `length` is an integer where it is given. -/
theorem flat_of_lengthOf {params : List (Name × Json)} {length : Option Nat} {value : Json}
    (h : lengthOf params = .ok length) (hvalue : params.lookup "length".toList = some value) :
    flat value = true := by
  rw [lengthOf, hvalue] at h
  obtain ⟨n, hn, -⟩ := map_eq_ok.mp h
  exact flat_of_requireInt hn

theorem flat_of_buildRandom {transformer : Transformer} (hnodup : (config.map Prod.fst).Nodup)
    (h : buildRandom texts config = .ok transformer) : ∀ field ∈ config, flat field.2 = true := by
  simp only [buildRandom, bind_eq_ok, requireText_eq_ok] at h
  obtain ⟨params, hparams, raw, hraw, h⟩ := h
  obtain ⟨rfl, hknown⟩ := requireParams_eq_ok hparams
  split at h
  · cases h
  · simp only [bind_eq_ok] at h
    obtain ⟨preserve, hpreserve, _, -, _, -, length, hlength, -⟩ := h
    refine flat_of_known hnodup hknown fun name hname value hvalue => ?_
    simp only [List.cons_append, List.nil_append, List.mem_cons, List.not_mem_nil, or_false] at hname
    rcases hname with rfl | rfl | rfl
    · cases hraw.symm.trans hvalue
      rfl
    · exact flat_of_preserveLengthOf hpreserve hvalue
    · exact flat_of_lengthOf hlength hvalue

/-- The builders that read no secret. -/
theorem flat_of_pureBuilder {name : Name} {transformer : Transformer}
    (hnodup : (config.map Prod.fst).Nodup)
    (h : pureBuilder texts config name = some (.ok transformer)) :
    ∀ field ∈ config, flat field.2 = true := by
  have hhash : ∀ algorithm, buildHash texts config algorithm = .ok transformer →
      ∀ field ∈ config, flat field.2 = true := by
    intro algorithm h field hfield
    rw [eq_nil_of_buildHash h] at hfield
    cases hfield
  rw [pureBuilder] at h
  split_ifs at h
  · exact hhash .md5 (Option.some.inj h)
  · exact hhash .sha256 (Option.some.inj h)
  · exact hhash .sha512 (Option.some.inj h)
  · exact flat_of_buildRegex hnodup (Option.some.inj h)
  · exact flat_of_buildRandom hnodup (Option.some.inj h)
  · exact flat_of_buildFixed hnodup (Option.some.inj h)
  · exact flat_of_buildTruncate hnodup (Option.some.inj h)

end

/-- **A transformer that is built has flat parameters.** -/
theorem flat_of_build {σ ε : Type} {texts : Texts} {provider : SecretProvider σ ε} {name : Name}
    {config : List (Name × Json)} {state after : σ} {transformer : Transformer}
    (hnodup : (config.map Prod.fst).Nodup)
    (h : build texts provider name config state = .ok (transformer, after)) :
    ∀ field ∈ config, flat field.2 = true := by
  rw [build] at h
  split_ifs at h
  · simp only [buildHmacSha256, bind_eq_ok, named, mapError_eq_ok] at h
    obtain ⟨_, hparams, -⟩ := h
    intro field hfield
    rw [eq_nil_of_checkHmacParams hparams] at hfield
    cases hfield
  · split at h
    · cases h
    · rename_i built hbuilt
      simp only [named, map_eq_ok, mapError_eq_ok] at h
      obtain ⟨built', rfl, -⟩ := h
      exact flat_of_pureBuilder hnodup hbuilt

end MaskGateway.Proofs.Masking
