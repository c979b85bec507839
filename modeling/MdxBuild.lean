import MdxBuild.Batch.Lowering
import MdxBuild.Cache.Build
import MdxBuild.Config.Fingerprint
import MdxBuild.Digest.Sha256
import MdxBuild.Directive.Expansion
import MdxBuild.Discovery
import MdxBuild.Heading.Assignment
import MdxBuild.Hook
import MdxBuild.Import.Injection
import MdxBuild.Jsx.Annotated
import MdxBuild.Jsx.Entity
import MdxBuild.Jsx.Lowering
import MdxBuild.Jsx.Routine
import MdxBuild.Jsx.Text
import MdxBuild.Module.Metadata
import MdxBuild.Proofs.Batch.Interleaving
import MdxBuild.Proofs.Directive.Fencing
import MdxBuild.Proofs.Directive.Nesting
import MdxBuild.Proofs.Directive.Outline
import MdxBuild.Proofs.Heading.Literals
import MdxBuild.Proofs.Session.Soundness
import MdxBuild.Proofs.Session.Transparency
import MdxBuild.Proofs.Session.Unchanged
import MdxBuild.Script.Expression
import MdxBuild.Script.Markup
import MdxBuild.Script.Module
import MdxBuild.Script.Printer
import MdxBuild.Script.Statement
import MdxBuild.Session.Build
import MdxBuild.Text.Identifier
import MdxBuild.Trial.Compiler
import MdxBuild.Trial.Hook
import MdxBuild.Trial.Routine
import MdxBuild.Proofs.Directive.Change
import MdxBuild.Proofs.Directive.Idempotence
import MdxBuild.Proofs.Directive.Frontmatter
import MdxBuild.Proofs.Text.Scan
import MdxBuild.Proofs.Import.Statement
import MdxBuild.Proofs.Import.Search
import MdxBuild.Proofs.Import.Inventory
import MdxBuild.Proofs.Route
import MdxBuild.Proofs.Component.Registry
import MdxBuild.Proofs.Directive.Newline
import MdxBuild.Proofs.Import.Addition
import MdxBuild.Proofs.Import.Binding
import MdxBuild.Proofs.Import.Clause
import MdxBuild.Proofs.Import.Fence
import MdxBuild.Proofs.Import.Injection
import MdxBuild.Proofs.Import.Newline
import MdxBuild.Proofs.Directive.Blanking
import MdxBuild.Proofs.Markdown.Blanking
import MdxBuild.Proofs.Markdown.Newline
import MdxBuild.Proofs.Markdown.Region
import MdxBuild.Proofs.Route.Mark
import MdxBuild.Proofs.Route.Newline
import MdxBuild.Proofs.Text.Newline
import MdxBuild.Proofs.Config.Fingerprint
import MdxBuild.Proofs.Cache.Memoization
import MdxBuild.Proofs.Cache.Reopening
import MdxBuild.Proofs.Session.SourceMap
import MdxBuild.Proofs.Cache.Frame
import MdxBuild.Proofs.Config.Format
import MdxBuild.Proofs.Jsx.Plain
import MdxBuild.Proofs.Module.DefaultExport
import MdxBuild.Proofs.Heading.Rereading
import MdxBuild.Proofs.Heading.Precedence
import MdxBuild.Proofs.Cache.Healing
import MdxBuild.Proofs.Session.Resumption
import MdxBuild.Proofs.Directive.Attribute
import MdxBuild.Proofs.Heading.Confinement
import MdxBuild.Proofs.Import.Frontmatter
import MdxBuild.Proofs.Module.MetadataExport
import MdxBuild.Proofs.Hook
import MdxBuild.Proofs.Route.Compiled
import MdxBuild.Proofs.Digest.Separation
import MdxBuild.Proofs.Directive.Token
import MdxBuild.Proofs.Jsx.Text
