namespace Chip8.Banner

def name : String :=
  "MonoChip Emulator"

def intro : String :=
  name ++ " V1.0.0 -- "

def line : String :=
  intro ++ "Copyright (C) 2022 Gregory Maynard-Hoare, licensed under GNU Affero General Public " ++
    "License v3.0"

end Chip8.Banner
