import Distfix.Calculator.Report

def main (args : List String) : IO UInt32 := do
  let source ← IO.FS.readFile (args.headD "test.mx")
  IO.print (Distfix.Calculator.report source)
  return 0
