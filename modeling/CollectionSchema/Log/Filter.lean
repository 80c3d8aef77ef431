import CollectionSchema.Log.Directive

/-!
# Log filters

A filter is a list of directives, and of several that apply to an event the most
specific one decides; an event to which none applies is left out.  A filter is
written as its directives with commas between them.
-/

set_option autoImplicit false

namespace CollectionSchema

/-- Which events are written. -/
structure LogFilter where
  directives : List LogDirective
  deriving DecidableEq, Repr

namespace LogFilter

/-- Whether a filter lets an event through. -/
def allows (filter : LogFilter) (event : LogEvent) : Bool :=
  match filter.directives.filter fun directive => directive.applies event with
  | [] => false
  | first :: others =>
    match (others.foldl LogDirective.moreSpecific first).level with
    | none => false
    | some level => event.level.verbosity ≤ level.verbosity

/-- The lines of those events that a filter lets through. -/
def lines (filter : LogFilter) (events : List LogEvent) : String :=
  String.join ((events.filter filter.allows).map LogEvent.line)

/-- Warnings of everything, and what this program has to say. -/
def standard : LogFilter :=
  ⟨[⟨"", none, none, some .warn⟩, ⟨"polylang", none, none, some .info⟩]⟩

/-- The pieces of a text between commas. -/
def pieces : List Char → List (List Char)
  | [] => [[]]
  | character :: rest =>
    if character = ',' then [] :: pieces rest
    else match pieces rest with
      | [] => [[character]]
      | piece :: others => (character :: piece) :: others

/-- The filter that a text writes; pieces without a character are left out, and a text without
directives silences everything. -/
def ofText? (text : String) : Option LogFilter :=
  (((pieces text.toList).filter fun piece => !piece.isEmpty).mapM LogDirective.ofText?).map
    LogFilter.mk

/-- The filter that a setting asks for; the standard one without a setting, or with one that cannot
be read. -/
def ofSetting (setting : Option String) : LogFilter := (setting.bind ofText?).getD standard

end LogFilter

end CollectionSchema
