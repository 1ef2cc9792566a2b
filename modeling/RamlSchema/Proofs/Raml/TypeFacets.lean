import RamlSchema.Proofs.Raml.BlockFacets

/-!
# The type facet of a property

The last `type:` line directly below a property gives the token of its type, and unless an enum is
lifted out of the property, its reference is what that token stands for. A token that is just a name
stands for an object of that name, whatever the file declares under it.
-/

namespace RamlSchema.Raml

open Schema (propertySchema? referenceJson)

/-! ### Property blocks -/

namespace PropertyBlock

/-- The token of a line that is a type facet of the block under a declaration. -/
def typeFacet? (base : Int) (line : Line) : Option String :=
  if line.indent = base + 2 then Line.facet? "type:" line.text else none

/-- The token of the last type facet. -/
def lastToken? (base : Int) (lines : List Line) : Option String :=
  lines.reverse.findSome? (typeFacet? base)

/-- What a token refers to. A union refers to nothing. -/
def tokenReference? (convention : Convention) (token : String) : Option String :=
  if TypeToken.isUnion token then none else TypeToken.reference? convention token

/-- The token that has been read, and the reference that it stands for. -/
structure Progress.HasToken (progress : Progress) (convention : Convention)
    (token : Option String) : Prop where
  token_eq : progress.property.token = token
  reference_eq : progress.property.reference = token.bind (tokenReference? convention)

variable {base : Int} {context : PropertyContext} {line : Line} {following : List Line}
  {progress : Progress} {token : Option String}

def facetToken? : Facet → Option String
  | .type token => some token
  | _ => none

/-- A line that is a facet of another kind is no type facet. -/
theorem facet?_type (text : String) :
    Line.facet? "type:" text = (Facet.ofText? text).bind facetToken? := by
  unfold Facet.ofText?
  split
  case isTrue htext =>
    rw [htext]
    decide
  case isFalse =>
    cases hdescription : Text.dropPrefix? text "description:" with
    | some description =>
      have htype : Text.dropPrefix? text "type:" = none := by
        refine Text.dropPrefix?_eq_none_of_head (by decide) ?_
        rw [Text.dropPrefix?_eq_some_iff.mp hdescription, String.toList_append,
          List.head?_append_of_ne_nil _ (by decide)]
        decide
      simp [Line.facet?, hdescription, htype, facetToken?]
    | none =>
      cases htype : Text.dropPrefix? text "type:" with
      | some token => simp [Line.facet?, hdescription, htype, facetToken?]
      | none =>
        cases hitems : Text.dropPrefix? text "items:" <;>
          simp [Line.facet?, hdescription, htype, hitems, facetToken?]

theorem typeFacet?_eq_bind (base : Int) (convention : Convention) (line : Line)
    (following : List Line) :
    typeFacet? base line = (blockFacet? base convention line following).bind BlockFacet.token? := by
  rw [typeFacet?, blockFacet?]
  split
  · rw [facet?_type, Option.bind_map]
    congr 1
    funext facet
    cases facet <;> rfl
  · rfl

theorem blockFacet?_of_typeFacet? {text : String} (htype : typeFacet? base line = some text)
    (convention : Convention) (following : List Line) :
    blockFacet? base convention line following = some (.type text) := by
  rw [typeFacet?_eq_bind base convention line following, Option.bind_eq_some_iff] at htype
  obtain ⟨facet, hfacet, htoken⟩ := htype
  cases facet with
  | type token =>
    obtain rfl := Option.some_inj.mp htoken
    exact hfacet
  | description | enum | items => cases htoken

theorem hasToken_readLine (base : Int) (line : Line) (following : List Line)
    (h : progress.HasToken context.convention token) :
    (readLine base context line following progress).HasToken context.convention
      ((typeFacet? base line).or token) := by
  have hproperty := property_readLine base context line following progress
  rw [typeFacet?_eq_bind base context.convention line following]
  cases hfacet : blockFacet? base context.convention line following with
  | none =>
    rw [hfacet] at hproperty
    exact ⟨(congrArg Property.token hproperty).trans h.token_eq,
      (congrArg Property.reference hproperty).trans h.reference_eq⟩
  | some facet =>
    rw [hfacet] at hproperty
    cases facet with
    | type text =>
      exact ⟨congrArg Property.token hproperty, congrArg Property.reference hproperty⟩
    | description | enum | items =>
      exact ⟨(congrArg Property.token hproperty).trans h.token_eq,
        (congrArg Property.reference hproperty).trans h.reference_eq⟩

/-- The whole block: the last type facet counts. -/
theorem hasToken_read (base : Int) (lines : List Line)
    (h : progress.HasToken context.convention token) :
    (read base context progress lines).HasToken context.convention
      ((lastToken? base lines).or token) := by
  induction lines generalizing progress token with
  | nil => exact h
  | cons line following ih =>
    have hstep := ih (hasToken_readLine base line following h)
    have htoken : (lastToken? base (line :: following)).or token =
        (lastToken? base following).or ((typeFacet? base line).or token) := by
      simp [lastToken?, List.findSome?_append, Option.or_assoc]
    rw [read, htoken]
    exact hstep

/-- The property shows its last type facet, and unless an enum is lifted out of it, it refers to
what that facet stands for. -/
theorem resolve_token (base : Int) (context : PropertyContext) (number : Int)
    (declared : Option String) (following : List Line) :
    (resolve base context number declared following).property.token =
        lastToken? base (PropertyBlock.lines base following) ∧
      ((resolve base context number declared following).liftedEnum = none →
        (resolve base context number declared following).property.reference =
          (lastToken? base (PropertyBlock.lines base following)).bind
            (tokenReference? context.convention)) := by
  have hempty : ({} : Progress).HasToken context.convention none := ⟨rfl, rfl⟩
  obtain ⟨htoken, hreference⟩ := hasToken_read base (PropertyBlock.lines base following) hempty
  rw [Option.or_none, property_read] at htoken hreference
  rw [property_resolve, liftedEnum_resolve]
  split
  · rw [plainBlockProperty, token_dropStrayItems, reference_dropStrayItems]
    exact ⟨htoken, fun _ => hreference⟩
  · refine ⟨?_, nofun⟩
    dsimp only
    rw [plainBlockProperty, token_dropStrayItems]
    exact htoken

end PropertyBlock

/-! ### Plain names -/

namespace TypeToken

/-- A token that is just the name of a type. -/
structure IsPlainName (token : String) : Prop where
  ne_empty : token ≠ ""
  notScalar : isScalar token = false
  notDotted : Text.contains token "." = false
  notUnion : isUnion token = false
  notOptional : Text.endsWith token "?" = false
  notIncluded : Text.startsWith token includeDirective = false

theorem clean_eq_self {token : String} (htrim : Text.trim token = token)
    (hunmarked : Text.endsWith token "?" = false) : clean token = token := by
  have hsuffix : Text.dropSuffix? token "?" = none := Text.dropSuffix?_eq_none_iff.mpr hunmarked
  rw [clean, htrim, Text.stripSuffix, hsuffix, Option.getD_none]

theorem IsPlainName.clean_eq {token : String} (h : IsPlainName token)
    (htrim : Text.trim token = token) : clean token = token := clean_eq_self htrim h.notOptional

theorem IsPlainName.target?_eq {token : String} (h : IsPlainName token)
    (htrim : Text.trim token = token) : target? token = some (.object token) := by
  have hdirective : Text.dropPrefix? token includeDirective = none := by
    rw [Option.eq_none_iff_forall_ne_some]
    intro rest hrest
    have hstarts := Text.startsWith_append includeDirective rest
    rw [← Text.dropPrefix?_eq_some_iff.mp hrest, h.notIncluded] at hstarts
    cases hstarts
  have hcut : Text.cut? token "." = none := by
    have hcontains := h.notDotted
    rwa [Text.contains, Option.isSome_eq_false_iff, Option.isNone_iff_eq_none] at hcontains
  have hempty : token.isEmpty = false := by simpa using h.ne_empty
  rw [target?, hempty, h.notScalar, h.clean_eq htrim, hdirective]
  simp [namedTarget, hcut]

end TypeToken

/-! ### Sites -/

namespace Site

/-- The token of the last type facet below the heading. -/
def token? (site : Site) : Option String :=
  PropertyBlock.lastToken? site.line.indent
    (PropertyBlock.lines site.line.indent site.following)

variable {convention : Convention} {site : Site} {token : String}

theorem trim_of_token? (htoken : site.token? = some token) : Text.trim token = token := by
  obtain ⟨line, -, hfacet⟩ := List.exists_of_findSome?_eq_some htoken
  rw [PropertyBlock.typeFacet?] at hfacet
  split at hfacet
  case isFalse => cases hfacet
  case isTrue =>
    obtain ⟨rest, -, rfl⟩ := Option.map_eq_some_iff.mp hfacet
    exact Text.trim_trim rest

theorem token_resolution (convention : Convention) (site : Site) :
    (site.resolution convention).property.token = site.token? :=
  (PropertyBlock.resolve_token ..).1

/-- A property whose type facet is a plain name is rendered as a reference to the object of that
name. -/
theorem propertySchema?_of_isPlainName (htoken : site.token? = some token)
    (hplain : TypeToken.IsPlainName token) (hlifted : site.liftedEnum convention = none) :
    propertySchema? site.name (site.resolution convention).property =
      some (referenceJson ("./" ++ (Target.object token).fileName convention)) := by
  have hreference := (PropertyBlock.resolve_token site.line.indent
    ⟨site.parent, site.name, convention, (propertyName site.heading).2⟩ site.line.number
    (some site.line.text) site.following).2 hlifted
  change _ = site.token?.bind _ at hreference
  rw [htoken, Option.bind_some, PropertyBlock.tokenReference?, hplain.notUnion,
    if_neg Bool.false_ne_true, TypeToken.reference?, hplain.target?_eq (trim_of_token? htoken)]
    at hreference
  refine propertySchema?_of_reference hreference ?_
  simp

end Site

end RamlSchema.Raml
