import LSystem.Description.Rules
import LSystem.Description.Development
import LSystem.Main
import LSystem.Proofs.Development.Consistency
import LSystem.Proofs.Demo.Session
import LSystem.Proofs.Cursor.Traversal
import LSystem.Proofs.Cursor.Bookkeeping
import LSystem.Proofs.Cursor.Inquiry
import LSystem.Proofs.Cursor.Descent
import LSystem.Proofs.Rule.Probing
import LSystem.Proofs.Rule.Filing
import LSystem.Proofs.Rule.Selection
import LSystem.Proofs.Development.Interaction
import LSystem.Proofs.Development.Separation
import LSystem.Proofs.Development.RenderingRun
import LSystem.Proofs.Development.Renewal
import LSystem.Proofs.Rule.Chain
import LSystem.Proofs.Rule.Hiding
import LSystem.Proofs.Development.Assurance
import LSystem.Proofs.Cursor.Parentage
import LSystem.Proofs.Rule.Opacity
import LSystem.Proofs.Rule.Inventory
import LSystem.Proofs.Generation.Inertness
import LSystem.Proofs.Development.Reports
import LSystem.Proofs.Development.Morphism
import LSystem.Proofs.Development.Renaming
import LSystem.Proofs.Development.Spelling
import LSystem.Proofs.Dump.Layout
import LSystem.Proofs.Dump.Wrapping
import LSystem.Proofs.Dump.Lines
import LSystem.Proofs.Demo.Turtle
import LSystem.Proofs.Development.Census
import LSystem.Proofs.Demo.Koch
import LSystem.Proofs.Demo.Arguments
import LSystem.Proofs.Demo.InlinedValues
import LSystem.Proofs.Generation.Manuscript
