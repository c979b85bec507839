import MdxBuild.Digest.Content

/-!
# Source documents

A document as it is handed over for a build: its id and its source. A host that has hashed the
content already hands over that digest too; it then stands in for the source in every digest.
-/

namespace MdxBuild

/-- A document of a build. -/
structure SourceDocument where
  id : Text
  source : Text
  /-- The digest of the source, if the host has made one. -/
  digest : Option Text := none
deriving DecidableEq, Repr

namespace SourceDocument

/-- The text that the digests of a document are made of. -/
def identity (document : SourceDocument) : Text :=
  document.digest.getD document.source

/-- The digest of a document under a fingerprint. -/
def digestWith (hash : Hash) (document : SourceDocument) (fingerprint : Text) : Text :=
  Digest.compute hash document.identity fingerprint

@[simp]
theorem identity_of_digest (id source digest : Text) :
    identity ⟨id, source, some digest⟩ = digest :=
  rfl

@[simp]
theorem identity_of_source (id source : Text) : identity ⟨id, source, none⟩ = source :=
  rfl

end SourceDocument

end MdxBuild
