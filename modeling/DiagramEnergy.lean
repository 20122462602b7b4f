import DiagramEnergy.Catalog.Json
import DiagramEnergy.Path.Json
import DiagramEnergy.Problem
import DiagramEnergy.Standard.Catalog
import DiagramEnergy.Standard.Functions
import DiagramEnergy.Table.Lemmas
import DiagramEnergy.Proofs.Energy
import DiagramEnergy.Proofs.Evaluation.Integers
import DiagramEnergy.Proofs.Evaluation.Locality
import DiagramEnergy.Proofs.History
import DiagramEnergy.Proofs.Numbers.Extensions
import DiagramEnergy.Proofs.Problem.Calls
import DiagramEnergy.Proofs.Problem.Complete
import DiagramEnergy.Proofs.Problem.DefaultCalls
import DiagramEnergy.Proofs.Problem.Penalties
import DiagramEnergy.Proofs.Problem.Plain
import DiagramEnergy.Proofs.Saving
import DiagramEnergy.Proofs.Evaluation.Recursion
import DiagramEnergy.Proofs.Evaluation.Budget
import DiagramEnergy.Proofs.Evaluation.Chronicle
import DiagramEnergy.Proofs.Evaluation.Cycles
import DiagramEnergy.Proofs.Evaluation.References
import DiagramEnergy.Proofs.Evaluation.ShapeSources
import DiagramEnergy.Proofs.Evaluation.Trail
import DiagramEnergy.Proofs.Path.Refusals
import DiagramEnergy.Proofs.Sampling.Forms
import DiagramEnergy.Proofs.Store.Batches
import DiagramEnergy.Proofs.Numbers.Regions
