import MdxBuild.Hook

/-!
# Trial hooks

Hooks that a session can be tried out with: each does one plain edit, or refuses certain documents.
-/

namespace MdxBuild.Trial

/-- What a trial hook does with a source. -/
inductive HookAction where
  | append (text : Text)
  | prepend (text : Text)
  | replace (part replacement : Text)
  /-- Refuses the documents whose id starts with a text. -/
  | refuseId (start message : Text)
  /-- Refuses the documents whose source has a text in it. -/
  | refuseText (part message : Text)
  | keep
deriving DecidableEq, Repr

/-- What the action makes of the source of a document. -/
def HookAction.apply : HookAction → (id source : Text) → Except Text Text
  | .append text, _, source => .ok (source ++ text)
  | .prepend text, _, source => .ok (text ++ source)
  | .replace part replacement, _, source => .ok (Text.replaceAll part replacement source)
  | .refuseId start message, id, source =>
    if start.isPrefixOf id then .error message else .ok source
  | .refuseText part message, _, source =>
    if Text.occursIn part source then .error message else .ok source
  | .keep, _, source => .ok source

/-- The hook that does an action. -/
def HookAction.hook (name : Text) (order : HookOrder) (action : HookAction) : Hook :=
  ⟨name, order, action.apply⟩

end MdxBuild.Trial
