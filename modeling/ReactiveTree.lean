import ReactiveTree.Main
import ReactiveTree.Proofs.Animation.Following
import ReactiveTree.Proofs.Animation.Ticks
import ReactiveTree.Proofs.Cell.Edges
import ReactiveTree.Proofs.Cell.Mirroring
import ReactiveTree.Proofs.Cell.Occupancy
import ReactiveTree.Proofs.Cell.Once
import ReactiveTree.Proofs.Cell.Reach
import ReactiveTree.Proofs.Definition.Written
import ReactiveTree.Proofs.Scene.Names
import ReactiveTree.Proofs.Scene.Typing
import ReactiveTree.Proofs.Value.TextForm
import ReactiveTree.Script.Session
