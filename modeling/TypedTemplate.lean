import TypedTemplate.Main
import TypedTemplate.Proofs.Documentation
import TypedTemplate.Proofs.Engine
import TypedTemplate.Proofs.Name
import TypedTemplate.Proofs.Path.Given
import TypedTemplate.Proofs.Path.Termination
import TypedTemplate.Proofs.Plan
import TypedTemplate.Proofs.Plan.Arguments
import TypedTemplate.Proofs.Plan.Resolution
import TypedTemplate.Proofs.Render.Compilation
import TypedTemplate.Proofs.Render.Failures
import TypedTemplate.Proofs.Render.Invalidation
import TypedTemplate.Proofs.Render.Typing
import TypedTemplate.Proofs.Template.Descent
import TypedTemplate.Proofs.Template.Faults
import TypedTemplate.Proofs.Template.Naming
import TypedTemplate.Proofs.Template.Placement
import TypedTemplate.Proofs.Template.Underline
import TypedTemplate.Proofs.Text.Cursor
import TypedTemplate.Proofs.Token.Lossless
import TypedTemplate.Proofs.Render.Still
import TypedTemplate.Proofs.Engine.NamedContext
import TypedTemplate.Proofs.Engine.Precedence
